import SignedRelay.Word

/-!
# Words keep what they encode

A word keeps its number, and words written one behind the other can be told apart. Main statements: a
number is read back from its word, and equal concatenations of words are of the same words.
-/
namespace SignedRelay

namespace Word

theorem ofInt_eq_ok {value : Int} {word : Bytes} : ofInt value = .ok word ↔
    (0 ≤ value ∧ value < Bytes.capacity 32) ∧ Bytes.ofNatBE 32 value.toNat = word := by
  unfold ofInt
  by_cases h : value < 0 ∨ (Bytes.capacity 32 : Int) ≤ value
  · rw [if_pos h]
    constructor
    · intro hok
      cases hok
    · rintro ⟨hrange, _⟩
      omega
  · rw [if_neg h, Except.ok.injEq]
    exact ⟨fun hword => ⟨by omega, hword⟩, fun hword => hword.2⟩

theorem toNatBE_of_ofInt {value : Int} {word : Bytes} (h : ofInt value = .ok word) :
    (Bytes.toNatBE word : Int) = value := by
  obtain ⟨⟨hpos, hlt⟩, rfl⟩ := ofInt_eq_ok.1 h
  have hfits : value.toNat < Bytes.capacity 32 := by omega
  rw [Bytes.toNatBE_ofNatBE hfits]
  exact Int.toNat_of_nonneg hpos

theorem ofInt_inj {a b : Int} {word : Bytes} (ha : ofInt a = .ok word) (hb : ofInt b = .ok word) :
    a = b := by
  rw [← toNatBE_of_ofInt ha, ← toNatBE_of_ofInt hb]

/-- The number of a byte string that is no longer than a word has a word. -/
theorem ofInt_toNatBE {data : Bytes} (h : data.length ≤ 32) :
    ofInt (Bytes.toNatBE data) = .ok (Bytes.ofNatBE 32 (Bytes.toNatBE data)) :=
  ofInt_natCast (Nat.lt_of_lt_of_le (Bytes.toNatBE_lt data) (Bytes.capacity_le h))

theorem ofAddress_eq_ok {address word : Bytes} : ofAddress address = .ok word ↔
    address.length = 20 ∧ List.replicate 12 0x00 ++ address = word := by
  unfold ofAddress
  by_cases h : address.length = 20
  · simp [h]
  · simp [h]

theorem ofAddress_inj {a b word : Bytes} (ha : ofAddress a = .ok word)
    (hb : ofAddress b = .ok word) : a = b :=
  List.append_cancel_left ((ofAddress_eq_ok.1 ha).2.trans (ofAddress_eq_ok.1 hb).2.symm)

theorem length_flatten {words : List Bytes} (h : ∀ word ∈ words, word.length = 32) :
    words.flatten.length = 32 * words.length := by
  induction words with
  | nil => rfl
  | cons word rest ih =>
    obtain ⟨hword, hrest⟩ := List.forall_mem_cons.1 h
    rw [List.flatten_cons, List.length_append, hword, ih hrest, List.length_cons]
    omega

/-- Words written one behind the other can be told apart, however many there are. -/
theorem flatten_inj {first second : List Bytes} (hfirst : ∀ word ∈ first, word.length = 32)
    (hsecond : ∀ word ∈ second, word.length = 32) (h : first.flatten = second.flatten) :
    first = second := by
  induction first generalizing second with
  | nil =>
    cases second with
    | nil => rfl
    | cons word rest =>
      have hlen := congrArg List.length h
      have hword := hsecond word List.mem_cons_self
      simp only [List.flatten_nil, List.flatten_cons, List.length_nil, List.length_append] at hlen
      omega
  | cons word rest ih =>
    have hword := hfirst word List.mem_cons_self
    cases second with
    | nil =>
      have hlen := congrArg List.length h
      simp only [List.flatten_nil, List.flatten_cons, List.length_nil, List.length_append] at hlen
      omega
    | cons other others =>
      have hother := hsecond other List.mem_cons_self
      rw [List.flatten_cons, List.flatten_cons] at h
      obtain ⟨rfl, hrest⟩ := List.append_inj h (by rw [hword, hother])
      rw [ih (fun w hw => hfirst w (List.mem_cons_of_mem _ hw))
        (fun w hw => hsecond w (List.mem_cons_of_mem _ hw)) hrest]

end Word

end SignedRelay
