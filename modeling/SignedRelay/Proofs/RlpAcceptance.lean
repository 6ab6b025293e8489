import SignedRelay.Proofs.RlpCanonical

/-!
# Every canonical encoding is read

The header that is written for a payload is read as the class and the length of the payload, so what
is written one behind the other is read back in turn. Main statement: within a bound on the nesting of
lists, a value is read from its canonical encoding and from nothing else.
-/
namespace SignedRelay.Rlp

theorem split?_append (first rest : Bytes) :
    split? first.length (first ++ rest) = some (first, rest) := by
  unfold split?
  rw [if_pos (by simp), List.take_left, List.drop_left]

theorem longPayload?_append {payload : Bytes} (h : 55 < payload.length) (rest : Bytes) :
    longPayload? (Bytes.digitsBE payload.length).length
      (Bytes.digitsBE payload.length ++ (payload ++ rest)) = some (payload, rest) := by
  have hcanonical : ¬ ((Bytes.digitsBE payload.length).head? = some 0 ∨
      Bytes.toNatBE (Bytes.digitsBE payload.length) ≤ 55) := by
    rw [Bytes.toNatBE_digitsBE]
    rintro (hzero | hshort)
    · exact Bytes.head?_digitsBE _ hzero
    · omega
  unfold longPayload?
  rw [split?_append]
  dsimp only
  rw [if_neg hcanonical, Bytes.toNatBE_digitsBE]
  exact split?_append payload rest

section Header

variable {n : Nat} {tail payload rest : Bytes}

theorem item?_of_own {b : UInt8} (h : b < 0x80) : item? (b :: rest) = some (.bytes [b], rest) := by
  unfold item?
  exact if_pos h

theorem toNat_header (hn : n < 256) : (UInt8.ofNat n).toNat = n := by
  rw [UInt8.toNat_ofNat']
  omega

theorem item?_of_short_bytes (hn : n ≤ 55) (hsplit : split? n tail = some (payload, rest))
    (hown : isOwnEncoding payload = false) :
    item? (UInt8.ofNat (0x80 + n) :: tail) = some (.bytes payload, rest) := by
  have hb := toNat_header (n := 0x80 + n) (by omega)
  have hlength : 0x80 + n - 0x80 = n := by omega
  unfold item?
  simp only [UInt8.lt_iff_toNat_lt, hb, UInt8.reduceToNat]
  rw [if_neg (by omega), if_pos (by omega), hlength, hsplit]
  exact if_neg (by rw [hown]; exact Bool.false_ne_true)

theorem item?_of_long_bytes (hpos : 0 < n) (hn : n ≤ 8)
    (hlong : longPayload? n tail = some (payload, rest)) :
    item? (UInt8.ofNat (0xb7 + n) :: tail) = some (.bytes payload, rest) := by
  have hb := toNat_header (n := 0xb7 + n) (by omega)
  have hsize : 0xb7 + n - 0xb7 = n := by omega
  unfold item?
  simp only [UInt8.lt_iff_toNat_lt, hb, UInt8.reduceToNat]
  rw [if_neg (by omega), if_neg (by omega), if_pos (by omega), hsize, hlong]
  rfl

theorem item?_of_short_list (hn : n ≤ 55) (hsplit : split? n tail = some (payload, rest)) :
    item? (UInt8.ofNat (0xc0 + n) :: tail) = some (.list payload, rest) := by
  have hb := toNat_header (n := 0xc0 + n) (by omega)
  have hlength : 0xc0 + n - 0xc0 = n := by omega
  unfold item?
  simp only [UInt8.lt_iff_toNat_lt, hb, UInt8.reduceToNat]
  rw [if_neg (by omega), if_neg (by omega), if_neg (by omega), if_pos (by omega), hlength, hsplit]
  rfl

theorem item?_of_long_list (hpos : 0 < n) (hn : n ≤ 8)
    (hlong : longPayload? n tail = some (payload, rest)) :
    item? (UInt8.ofNat (0xf7 + n) :: tail) = some (.list payload, rest) := by
  have hb := toNat_header (n := 0xf7 + n) (by omega)
  have hsize : 0xf7 + n - 0xf7 = n := by omega
  unfold item?
  simp only [UInt8.lt_iff_toNat_lt, hb, UInt8.reduceToNat]
  rw [if_neg (by omega), if_neg (by omega), if_neg (by omega), if_neg (by omega), hsize, hlong]
  rfl

end Header

theorem exists_of_isOwnEncoding {data : Bytes} (h : isOwnEncoding data = true) :
    ∃ b, data = [b] ∧ b < 0x80 := by
  unfold isOwnEncoding at h
  split at h
  · next b => exact ⟨b, rfl, of_decide_eq_true h⟩
  · cases h

theorem header_of_le {length : Nat} (start : Nat) (h : length ≤ 55) :
    header start length = [UInt8.ofNat (start + length)] := if_pos h

theorem header_of_gt {length : Nat} (start : Nat) (h : 55 < length) :
    header start length = UInt8.ofNat (start + 55 + (Bytes.digitsBE length).length) ::
      Bytes.digitsBE length := if_neg (Nat.not_le.2 h)

theorem length_digitsBE_pos {length : Nat} (h : 55 < length) :
    0 < (Bytes.digitsBE length).length := by
  have hnot := mt Bytes.length_digitsBE_le_iff.1
    (show ¬ length < Bytes.capacity 0 by rw [Bytes.capacity]; omega)
  omega

/-- The bytes of an item behind its header. -/
def Item.payload : Item → Bytes
  | bytes data => data
  | list payload => payload

/-- The header of an item is read back as the class and the length of its payload. -/
theorem item?_encode (item : Item) (h : item.payload.length < Bytes.capacity 8) (rest : Bytes) :
    item? (item.encode ++ rest) = some (item, rest) := by
  have hsize := Bytes.length_digitsBE_le_iff.2 h
  cases item with
  | bytes data =>
    cases hown : isOwnEncoding data with
    | true =>
      obtain ⟨b, rfl, hb⟩ := exists_of_isOwnEncoding hown
      have hself : (Item.bytes [b]).encode = [b] := by
        show (Rlp.bytes [b]).encode = [b]
        rw [Rlp.encode]
        exact if_pos hown
      rw [hself]
      exact item?_of_own hb
    | false =>
      show item? ((Rlp.bytes data).encode ++ rest) = _
      rw [encode_bytes_of_not_own hown, List.append_assoc]
      rcases Nat.lt_or_ge 55 data.length with hlong | hshort
      · rw [header_of_gt _ hlong, List.cons_append]
        exact item?_of_long_bytes (length_digitsBE_pos hlong) hsize (longPayload?_append hlong rest)
      · rw [header_of_le _ hshort, List.singleton_append]
        exact item?_of_short_bytes hshort (split?_append data rest) hown
  | list payload =>
    show item? (header 0xc0 payload.length ++ payload ++ rest) = _
    rw [List.append_assoc]
    rcases Nat.lt_or_ge 55 payload.length with hlong | hshort
    · rw [header_of_gt _ hlong, List.cons_append]
      exact item?_of_long_list (length_digitsBE_pos hlong) hsize (longPayload?_append hlong rest)
    · rw [header_of_le _ hshort, List.singleton_append]
      exact item?_of_short_list hshort (split?_append payload rest)

theorem length_payload_le (value : Rlp) : value.payload.length ≤ value.encode.length := by
  cases value with
  | bytes data =>
    rw [encode]
    split
    · exact Nat.le_refl _
    · rw [List.length_append]
      exact Nat.le_add_left _ _
  | list items =>
    rw [encode, List.length_append]
    exact Nat.le_add_left _ _

theorem length_encode_le_of_mem {values : List Rlp} {value : Rlp} (h : value ∈ values) :
    value.encode.length ≤ (encodeAll values).length := by
  induction values with
  | nil => cases h
  | cons first rest ih =>
    rw [encodeAll, List.length_append]
    rcases List.mem_cons.1 h with rfl | hrest
    · exact Nat.le_add_right _ _
    · exact Nat.le_trans (ih hrest) (Nat.le_add_left _ _)

theorem not_isEmpty_of_item? {data rest : Bytes} {item : Item} (h : item? data = some (item, rest)) :
    ¬ data.isEmpty = true := by
  have hlt := length_lt_of_item? h
  rw [List.isEmpty_iff]
  rintro rfl
  exact absurd hlt (Nat.not_lt_zero _)

theorem values?_of_bytes {data content rest : Bytes} {others : List Rlp}
    (h : item? data = some (.bytes content, rest)) (hrest : values? rest = some others) :
    values? data = some (bytes content :: others) := by
  rw [values?, if_neg (not_isEmpty_of_item? h)]
  split
  · next hitem =>
    rw [h] at hitem
    cases hitem
  · next hitem =>
    rw [h] at hitem
    cases hitem
    rw [hrest]
  · next hitem =>
    rw [h] at hitem
    cases hitem

theorem values?_of_list {data payload rest : Bytes} {items others : List Rlp}
    (h : item? data = some (.list payload, rest)) (hitems : values? payload = some items)
    (hrest : values? rest = some others) : values? data = some (list items :: others) := by
  rw [values?, if_neg (not_isEmpty_of_item? h)]
  split
  · next hitem =>
    rw [h] at hitem
    cases hitem
  · next hitem =>
    rw [h] at hitem
    cases hitem
  · next hitem =>
    rw [h] at hitem
    cases hitem
    rw [hitems, hrest]

/-- Values that are written one behind the other are read back. -/
theorem values?_encodeAll : ∀ values : List Rlp,
    (∀ value ∈ values, value.payload.length < Bytes.capacity 8) →
    values? (encodeAll values) = some values
  | [], _ => by
    rw [encodeAll, values?]
    rfl
  | bytes data :: rest, h => by
    obtain ⟨hfirst, hothers⟩ := List.forall_mem_cons.1 h
    rw [encodeAll]
    exact values?_of_bytes (item?_encode (.bytes data) hfirst _)
      (values?_encodeAll rest hothers)
  | list items :: rest, h => by
    obtain ⟨hfirst, hothers⟩ := List.forall_mem_cons.1 h
    have hinside : ∀ value ∈ items, value.payload.length < Bytes.capacity 8 := by
      intro value hmem
      exact Nat.lt_of_le_of_lt
        (Nat.le_trans (length_payload_le value) (length_encode_le_of_mem hmem)) hfirst
    rw [encodeAll, encode]
    exact values?_of_list (item?_encode (.list (encodeAll items)) hfirst _)
      (values?_encodeAll items hinside) (values?_encodeAll rest hothers)

/-- No header gives a payload of more than eight digits of length. -/
theorem length_payload_of_item? {data rest : Bytes} {item : Item}
    (h : item? data = some (item, rest)) : item.payload.length < Bytes.capacity 8 := by
  have hshort : 55 < Bytes.capacity 8 := by decide
  unfold item? at h
  split at h
  · cases h
  · next b tail =>
    have hbyte : b.toNat < 256 := b.toNat_lt
    have long {size : Nat} {payload after : Bytes} (hsize : size ≤ 8)
        (hlong : longPayload? size tail = some (payload, after)) :
        payload.length < Bytes.capacity 8 := by
      obtain ⟨_, hdigits, _⟩ := longPayload?_sound hlong
      exact Bytes.length_digitsBE_le_iff.1 (hdigits ▸ hsize)
    split at h
    · cases h
      show 1 < _
      omega
    split at h
    · next hltb8 =>
      split at h
      · next found after hsplit =>
        split at h
        · cases h
        · cases h
          obtain ⟨hlength, _⟩ := split?_sound hsplit
          have hlt : b.toNat < 0xb8 := UInt8.lt_iff_toNat_lt.1 hltb8
          show found.length < _
          omega
      · cases h
    split at h
    · next hltc0 =>
      obtain ⟨⟨found, after⟩, hlong, heq⟩ := Option.map_eq_some_iff.1 h
      cases heq
      have hlt : b.toNat < 0xc0 := UInt8.lt_iff_toNat_lt.1 hltc0
      exact long (by omega) hlong
    split at h
    · next hltf8 =>
      obtain ⟨⟨found, after⟩, hsplit, heq⟩ := Option.map_eq_some_iff.1 h
      cases heq
      obtain ⟨hlength, _⟩ := split?_sound hsplit
      have hlt : b.toNat < 0xf8 := UInt8.lt_iff_toNat_lt.1 hltf8
      show found.length < _
      omega
    · obtain ⟨⟨found, after⟩, hlong, heq⟩ := Option.map_eq_some_iff.1 h
      cases heq
      exact long (by omega) hlong

theorem length_payload_of_values? {data : Bytes} {values : List Rlp}
    (h : values? data = some values) :
    ∀ value ∈ values, value.payload.length < Bytes.capacity 8 := by
  fun_induction values? data generalizing values with
  | case1 data hempty =>
    cases h
    exact List.forall_mem_nil _
  | case2 data hempty hitem => cases h
  | case3 data hempty content rest hitem hrest ih => cases h
  | case4 data hempty content rest hitem others hothers ih =>
    cases h
    exact List.forall_mem_cons.2 ⟨length_payload_of_item? hitem, ih hothers⟩
  | case5 data hempty payload rest hitem hpayload ih => cases h
  | case6 data hempty payload rest hitem items hitems hrest ih1 ih2 => cases h
  | case7 data hempty payload rest hitem items hitems others hothers ih1 ih2 =>
    cases h
    refine List.forall_mem_cons.2 ⟨?_, ih2 hothers⟩
    show (encodeAll items).length < _
    rw [encodeAll_of_values? hitems]
    exact length_payload_of_item? hitem

section Reading

variable [Stack] {bound : Int} {data : Bytes}

/-- A value is read from its canonical encoding and from nothing else, unless it nests too deep to be
read at all. -/
theorem value?_eq_some_iff {value : Rlp} : value? data = some value ↔
    value.Encodes data ∧ value.nesting ≤ Stack.reading := by
  constructor
  · intro h
    have hencode := encode_of_value? h
    unfold value? at h
    split at h
    · next found hvalues =>
      split at h
      · next hnesting =>
        cases h
        exact ⟨⟨length_payload_of_values? hvalues _ List.mem_cons_self, hencode⟩, hnesting⟩
      · cases h
    · cases h
  · rintro ⟨hencodes, hnesting⟩
    have hvalues := values?_encodeAll [value] (List.forall_mem_singleton.2 hencodes.length_payload)
    rw [encodeAll, encodeAll, List.append_nil, hencodes.encode_eq] at hvalues
    unfold value?
    rw [hvalues]
    exact if_pos hnesting

theorem decodeList_eq_argument_iff {error : ArgumentError} :
    decodeList bound data = .error (.argument error) ↔
      error = .argumentsNotList ∧ ∃ content, decode bound data = .ok (.bytes content) := by
  unfold decodeList
  obtain ⟨value, hdecode⟩ | hdecode | hdecode | ⟨_, hdecode⟩ := decode_cases bound data
  · rw [hdecode]
    cases value with
    | bytes content => simp [eq_comm]
    | list items => simp
  · simp [hdecode]
  · simp [hdecode]
  · simp [hdecode]

theorem decodeList_eq_encoding_iff {error : EncodingError} :
    decodeList bound data = .error (.encoding error) ↔
      decode bound data = .error (.encoding error) := by
  unfold decodeList
  rcases decode bound data with found | (content | found)
  · simp
  · simp
  · simp

end Reading

/-- Under a bound of at most 400, a byte string is read as a value exactly if it is the value's
canonical encoding and every list in the value is enclosed by fewer lists than the bound; all else is
undecodable. As arguments it is read as the items of a list, and a byte string is refused as no list.
No value is read from two byte strings, under whatever bounds. -/
theorem decode_eq_ok_iff_encodes [Stack] {bound : Int} (hbound : bound ≤ 400) (data : Bytes) :
    (∀ value, decode bound data = .ok value ↔
      value.Encodes data ∧ ∀ depth, value.ListAt depth → (depth : Int) < bound) ∧
    ((¬ ∃ value, decode bound data = .ok value) ↔
      decode bound data = .error (.encoding .rlpMalformed) ∨
      decode bound data = .error (.encoding (.rlpNesting bound))) ∧
    (∀ items, decodeList bound data = .ok items ↔ decode bound data = .ok (.list items)) ∧
    (∀ error, decodeList bound data = .error (.encoding error) ↔
      decode bound data = .error (.encoding error)) ∧
    (∀ error, decodeList bound data = .error (.argument error) ↔
      error = .argumentsNotList ∧ ∃ content, decode bound data = .ok (.bytes content)) ∧
    ∀ value other limit, decode bound data = .ok value → decode limit other = .ok value →
      other = data := by
  -- The stack has room for everything that stays within the bound.
  have hreading := Stack.le_reading
  have hchecking := Stack.le_checking
  refine ⟨?_, ?_, fun _ => decodeList_eq_ok_iff, fun _ => decodeList_eq_encoding_iff,
    fun _ => decodeList_eq_argument_iff, ?_⟩
  · intro value
    rw [decode_eq_ok_iff, value?_eq_some_iff]
    constructor
    · rintro ⟨⟨hencodes, _⟩, _, hdepth⟩
      exact ⟨hencodes, hdepth⟩
    · rintro ⟨hencodes, hdepth⟩
      have hnesting := forall_listAt_lt_iff.1 hdepth
      have hheight := height_le_nesting value
      exact ⟨⟨hencodes, by omega⟩, by omega, hdepth⟩
  · constructor
    · intro hnone
      obtain hvalue | hmalformed | hnesting | ⟨hlarge, _⟩ := decode_cases bound data
      · exact absurd hvalue hnone
      · exact Or.inl hmalformed
      · exact Or.inr hnesting
      · omega
    · rintro herror ⟨value, hvalue⟩
      rw [hvalue] at herror
      rcases herror with herror | herror
      · cases herror
      · cases herror
  · intro value other limit hvalue hother
    rw [← encode_of_decode hvalue, encode_of_decode hother]

/-- A list of two items, a text of fifty-six bytes and the empty list. -/
def longSample : Rlp := .list [.bytes (List.replicate 56 0x61), .list []]

/-- Its encoding has a long header for the list, one for the text, and the empty list's own byte. It is
read under a bound of two. -/
theorem decode_eq_ok_iff_encodes_longSample :
    (2 : Int) ≤ 400 ∧ decode 2 ([0xf8, 0x3b, 0xb8, 0x38] ++ List.replicate 56 0x61 ++ [0xc0]) =
      .ok longSample := by
  have hencodes : longSample.Encodes
      ([0xf8, 0x3b, 0xb8, 0x38] ++ List.replicate 56 0x61 ++ [0xc0]) :=
    ⟨by decide +kernel, by decide +kernel⟩
  have hdepth : ∀ depth, longSample.ListAt depth → (depth : Int) < 2 := by
    intro depth h
    have hlt : depth < 2 := (listAt_iff_lt_nesting longSample).1 h
    omega
  exact ⟨by decide, ((decode_eq_ok_iff_encodes (by decide) _).1 longSample).2 ⟨hencodes, hdepth⟩⟩

end SignedRelay.Rlp
