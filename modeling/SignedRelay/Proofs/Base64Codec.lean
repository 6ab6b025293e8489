import SignedRelay.Text.Base64

/-!
# Base64 texts

Bytes are cut into numbers of six bits, and those are written as characters of the alphabet. Main
statements: the padded text of any bytes decodes to them, and a text with a character outside ASCII
decodes to nothing.
-/
namespace SignedRelay.Base64

/-- The numbers of six bits that bytes are cut into, the last one filled up with zeros. -/
def sextets : Bytes → List Nat
  | a :: b :: c :: rest =>
    a.toNat / 4 :: (a.toNat % 4 * 16 + b.toNat / 16) :: (b.toNat % 16 * 4 + c.toNat / 64) ::
      c.toNat % 64 :: sextets rest
  | [a, b] => [a.toNat / 4, a.toNat % 4 * 16 + b.toNat / 16, b.toNat % 16 * 4]
  | [a] => [a.toNat / 4, a.toNat % 4 * 16]
  | [] => []

/-- How many numbers the last quad is short of four. -/
def shortage : Bytes → Nat
  | _ :: _ :: _ :: rest => shortage rest
  | [_, _] => 1
  | [_] => 2
  | [] => 0

theorem encodeChars_eq (data : Bytes) :
    encodeChars data = (sextets data).map digit ++ List.replicate (shortage data) '=' := by
  fun_induction encodeChars data with
  | case1 a b c rest ih =>
    rw [ih]
    rfl
  | case2 a b => rfl
  | case3 a => rfl
  | case4 => rfl

theorem sextets_lt (data : Bytes) : ∀ n ∈ sextets data, n < 64 := by
  have hlt (byte : UInt8) : byte.toNat < 256 := byte.toNat_lt
  fun_induction sextets data with
  | case1 a b c rest ih =>
    have ha := hlt a
    have hb := hlt b
    have hc := hlt c
    simp only [List.forall_mem_cons]
    exact ⟨by omega, by omega, by omega, by omega, ih⟩
  | case2 a b =>
    have ha := hlt a
    have hb := hlt b
    simp only [List.forall_mem_cons]
    exact ⟨by omega, by omega, by omega, List.forall_mem_nil _⟩
  | case3 a =>
    have ha := hlt a
    simp only [List.forall_mem_cons]
    exact ⟨by omega, by omega, List.forall_mem_nil _⟩
  | case4 => exact List.forall_mem_nil _

theorem ofNat_eq_of_toNat {n : Nat} {byte : UInt8} (h : n = byte.toNat) : UInt8.ofNat n = byte := by
  rw [h, UInt8.ofNat_toNat]

/-- Each byte is put together again from the two numbers that it was cut into. -/
theorem pack_sextets (data : Bytes) : pack (sextets data) = some (data, shortage data) := by
  have hlt (byte : UInt8) : byte.toNat < 256 := byte.toNat_lt
  have hfirst (a b : UInt8) :
      UInt8.ofNat (a.toNat / 4 * 4 + (a.toNat % 4 * 16 + b.toNat / 16) / 16) = a := by
    have ha := hlt a
    have hb := hlt b
    exact ofNat_eq_of_toNat (by omega)
  have hsecond (a b c : UInt8) : UInt8.ofNat ((a.toNat % 4 * 16 + b.toNat / 16) % 16 * 16 +
      (b.toNat % 16 * 4 + c.toNat / 64) / 4) = b := by
    have hb := hlt b
    have hc := hlt c
    exact ofNat_eq_of_toNat (by omega)
  have hthird (b c : UInt8) :
      UInt8.ofNat ((b.toNat % 16 * 4 + c.toNat / 64) % 4 * 64 + c.toNat % 64) = c := by
    have hc := hlt c
    exact ofNat_eq_of_toNat (by omega)
  fun_induction sextets data with
  | case1 a b c rest ih =>
    rw [pack, ih, hfirst, hsecond, hthird]
    rfl
  | case2 a b =>
    have hlast := hsecond a b 0
    have hzero : (0 : UInt8).toNat / 64 = 0 := rfl
    rw [hzero, Nat.add_zero] at hlast
    rw [pack, hfirst, hlast]
    rfl
  | case3 a =>
    have hlast := hfirst a 0
    have hzero : (0 : UInt8).toNat / 16 = 0 := rfl
    rw [hzero, Nat.add_zero] at hlast
    rw [pack, hlast]
    rfl
  | case4 => rfl

theorem value?_digit : ∀ n < 64, value? (digit n) = some n := by decide +kernel

theorem digit_ne_pad : ∀ n < 64, digit n ≠ '=' := by decide +kernel

theorem mapM_value?_digits {values : List Nat} (h : ∀ n ∈ values, n < 64) :
    (values.map digit).mapM value? = some values := by
  induction values with
  | nil => rfl
  | cons first rest ih =>
    obtain ⟨hfirst, hrest⟩ := List.forall_mem_cons.1 h
    rw [List.map_cons, List.mapM_cons, value?_digit first hfirst, ih hrest]
    rfl

theorem paddingFits_self (values missing : Nat) : paddingFits values missing missing = true := by
  unfold paddingFits
  split <;> simp [*]

/-- Whatever padding fits behind the characters of some bytes, they decode to those bytes. -/
theorem decode_of_paddingFits {data : Bytes} {padding : Nat}
    (h : paddingFits (sextets data).length (shortage data) padding = true) :
    decode (String.ofList ((sextets data).map digit ++ List.replicate padding '=')) = some data := by
  have hlt := sextets_lt data
  have hdigits : ∀ c ∈ (sextets data).map digit, decide (c ≠ '=') = true := by
    intro c hc
    obtain ⟨n, hn, rfl⟩ := List.mem_map.1 hc
    exact decide_eq_true (digit_ne_pad n (hlt n hn))
  have hall : (List.replicate padding '=').all (· = '=') = true :=
    List.all_eq_true.2 fun c hc => decide_eq_true (List.eq_of_mem_replicate hc)
  have hvalues : (List.replicate padding '=').takeWhile (· ≠ '=') = [] := by
    rw [List.takeWhile_replicate]
    rfl
  have hpadding : (List.replicate padding '=').dropWhile (· ≠ '=') = List.replicate padding '=' := by
    rw [List.dropWhile_replicate]
    rfl
  unfold decode decodeChars
  rw [String.toList_ofList, List.takeWhile_append_of_pos hdigits,
    List.dropWhile_append_of_pos hdigits, hvalues, hpadding, List.append_nil, mapM_value?_digits hlt]
  show (pack (sextets data) >>= _) = _
  rw [pack_sextets]
  show (if _ then _ else _) = _
  rw [hall, List.length_replicate, h]
  rfl

/-- The decoder undoes the encoder, whatever the length is modulo three. -/
theorem decode_encode (data : Bytes) : decode (encode data) = some data := by
  unfold encode
  rw [encodeChars_eq]
  exact decode_of_paddingFits (paddingFits_self _ _)

/-- Behind complete quads, any number of padding characters may follow. -/
theorem decode_surplus {data : Bytes} (hdata : data ≠ []) (hquads : shortage data = 0)
    (surplus : Nat) :
    decode (encode data ++ String.ofList (List.replicate surplus '=')) = some data := by
  have hlength : (sextets data).length ≠ 0 := by
    intro hzero
    have hnil := List.length_eq_zero_iff.1 hzero
    unfold sextets at hnil
    split at hnil
    · cases hnil
    · cases hnil
    · cases hnil
    · exact hdata rfl
  have hfits : paddingFits (sextets data).length (shortage data) surplus = true := by
    unfold paddingFits
    rw [if_pos hquads, decide_eq_true hlength]
    rfl
  unfold encode
  rw [encodeChars_eq, hquads, List.replicate_zero, List.append_nil, ← String.ofList_append]
  exact decode_of_paddingFits hfits

theorem toNat_lt_of_value? {c : Char} {n : Nat} (h : value? c = some n) : c.toNat < 128 := by
  have hle {a b : Char} (hab : a ≤ b) : a.toNat ≤ b.toNat := hab
  unfold value? at h
  split at h
  · next hupper => exact Nat.lt_of_le_of_lt (hle hupper.2) (by decide)
  split at h
  · next hlower => exact Nat.lt_of_le_of_lt (hle hlower.2) (by decide)
  split at h
  · next hdigit => exact Nat.lt_of_le_of_lt (hle hdigit.2) (by decide)
  split at h
  · next hplus =>
    rw [hplus]
    decide
  split at h
  · next hslash =>
    rw [hslash]
    decide
  · cases h

theorem isSome_value?_of_mapM {text : List Char} {values : List Nat}
    (h : text.mapM value? = some values) : ∀ c ∈ text, (value? c).isSome := by
  induction text generalizing values with
  | nil => exact List.forall_mem_nil _
  | cons first rest ih =>
    rw [List.mapM_cons] at h
    obtain ⟨n, hfirst, h⟩ := Option.bind_eq_some_iff.1 h
    obtain ⟨others, hrest, _⟩ := Option.bind_eq_some_iff.1 h
    exact List.forall_mem_cons.2 ⟨Option.isSome_iff_exists.2 ⟨n, hfirst⟩, ih hrest⟩

/-- A text that decodes holds characters of the alphabet and then padding, and nothing else. -/
theorem isSome_value?_of_decode {text : String} {data : Bytes} (h : decode text = some data) :
    ∀ c ∈ text.toList, (value? c).isSome ∨ c = '=' := by
  obtain ⟨values, hvalues, h⟩ := Option.bind_eq_some_iff.1 h
  obtain ⟨packed, _, h⟩ := Option.bind_eq_some_iff.1 h
  have hfits := (Option.ite_none_right_eq_some.1 h).1
  have hpadding := List.all_eq_true.1 (Bool.and_eq_true_iff.1 hfits).1
  have hsplit : text.toList.takeWhile (· ≠ '=') ++ text.toList.dropWhile (· ≠ '=') = text.toList :=
    List.takeWhile_append_dropWhile
  intro c hc
  rw [← hsplit, List.mem_append] at hc
  obtain hc | hc := hc
  · exact Or.inl (isSome_value?_of_mapM hvalues c hc)
  · exact Or.inr (of_decide_eq_true (hpadding c hc))

theorem decode_eq_none_of_not_ascii {text : String} {c : Char} (hmem : c ∈ text.toList)
    (hc : 128 ≤ c.toNat) : decode text = none := by
  refine Option.eq_none_iff_forall_ne_some.2 fun data h => ?_
  obtain hvalue | rfl := isSome_value?_of_decode h c hmem
  · obtain ⟨n, hn⟩ := Option.isSome_iff_exists.1 hvalue
    exact absurd (toNat_lt_of_value? hn) (Nat.not_lt.2 hc)
  · exact absurd hc (by decide)

end SignedRelay.Base64
