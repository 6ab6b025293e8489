import SignedRelay.Proofs.EnvelopeCodec
import SignedRelay.Proofs.Faults
import SignedRelay.Proofs.TypeGrammar

/-!
# Numerals that are too long

A size of more digits than a numeral may have is read before anything bounds it. Main statement: a
message whose method has such a size stops verification with a fault.
-/
namespace SignedRelay

open Outcome Text

section LongNumeral

variable {digits : List Char}

theorem numeral_of_long (h : numeralLimit < digits.length) :
    numeral digits = .error (.numeralLength digits.length) := if_pos h

namespace ArgType

theorem parse_of_long (bound : Int) (hdigits : ∀ c ∈ digits, c.isDigit = true)
    (hlong : numeralLimit < digits.length) : parse bound ("uint".toList ++ digits) =
      .error (.fault (.numeralLength digits.length)) := by
  have hall : ∀ c ∈ digits, Digit c := fun c hc => isDigit_iff.1 (hdigits c hc)
  have hne : digits ≠ [] := by
    rintro rfl
    cases hlong
  have hname : Identifier ("uint".toList ++ digits) :=
    (identifier_of_mem_keywords ("uint", uint) (by decide)).append fun c hc => .inr (hall c hc)
  have hidentifier : identifier? ("uint".toList ++ digits) = some ("uint".toList ++ digits, []) :=
    identifier?_eq_some_iff.2 ⟨hname, (List.append_nil _).symm, endsIdentifier_nil⟩
  have hword : ofWord ("uint".toList ++ digits) =
      .error (.fault (.numeralLength digits.length)) := by
    unfold ofWord
    rw [lookup_keywords_append_digits hne hall]
    dsimp only
    rw [digitsAfter?_append_digits hne hall]
    dsimp only
    unfold ofSizedInteger
    rw [numeral_of_long hlong]
    rfl
  unfold parse
  rw [hidentifier]
  dsimp only
  rw [hword]

end ArgType

namespace Definition

theorem parse_of_long (bound : Int) (hdigits : ∀ c ∈ digits, c.isDigit = true)
    (hlong : numeralLimit < digits.length) :
    parse bound ("f(uint".toList ++ digits ++ " x)".toList) =
      .error (.fault (.numeralLength digits.length)) := by
  have hword : ∀ c ∈ "uint".toList ++ digits, (c != ' ') = true := by
    intro c hc
    rcases List.mem_append.1 hc with hstem | hdigit
    · exact List.all_eq_true.1 (rfl : "uint".toList.all (· != ' ') = true) c hstem
    · rw [bne_iff_ne]
      rintro rfl
      exact absurd (hdigits ' ' hdigit) (by decide)
  have hparam : Parser.param bound ("uint".toList ++ digits ++ " x)".toList) =
      .error (.fault (.numeralLength digits.length)) := by
    unfold Parser.param
    have hdrop : ("uint".toList ++ digits ++ " x)".toList).dropWhile (· != ' ') = " x)".toList :=
      dropWhile_append_cons hword rfl
    have htake : ("uint".toList ++ digits ++ " x)".toList).takeWhile (· != ' ') =
        "uint".toList ++ digits := takeWhile_append_cons hword rfl
    rw [hdrop, htake]
    show (ArgType.parse bound ("uint".toList ++ digits) >>= _) = _
    rw [ArgType.parse_of_long bound hdigits hlong]
    rfl
  unfold parse Parser.declaration Parser.params
  show ((Parser.param bound ("uint".toList ++ digits ++ " x)".toList) >>= _) >>= _) >>= _ = _
  rw [hparam]
  rfl

end Definition

end LongNumeral

/-- A method text that cannot be read stops the preparation of a call. -/
theorem MetaCall.prepare_of_parse_error [Stack] {hasher : Hasher} {bound : Int}
    {separator gatewayId : Bytes}
    {call : MetaCall} {argumentsText : List Char} {header : Bytes} {error : Error}
    (hmethod : call.methodName.isEmpty = false)
    (htext : Definition.argumentsText call.methodName.toList = .ok argumentsText)
    (hheader : call.headerWords hasher gatewayId argumentsText = .ok header)
    (hparse : Definition.parse bound call.methodName.toList = .error error) :
    call.prepare hasher bound separator gatewayId = .error error := by
  refine (prepare_eq_error_iff_of_header hmethod htext hheader).2 ?_
  unfold methodArguments
  rw [hparse]
  rfl

/-- A message whose method has a size of more digits than can be read is not read as a call. -/
theorem VerifiedCall.ofMessage_of_long [Stack] {message : Bytes} {envelope : Envelope}
    {digits : List Char}
    (henvelope : Envelope.decode message = .ok envelope)
    (hmethod : envelope.method.toList = "f(uint".toList ++ digits ++ " x)".toList)
    (hdigits : ∀ c ∈ digits, c.isDigit = true) (hlong : numeralLimit < digits.length)
    (crypto : Crypto) (bound : Int) (separator gatewayId : Bytes) :
    ofMessage crypto bound separator gatewayId message =
      .error (.fault (.numeralLength digits.length)) := by
  obtain ⟨text, htext⟩ : ∃ text, Definition.argumentsText envelope.method.toList = .ok text := by
    rw [hmethod]
    exact ⟨_, rfl⟩
  obtain ⟨header, hheader⟩ := PendingCall.exists_headerWords
    (Envelope.wellFormed_of_decode henvelope) crypto.hasher gatewayId text
  have hempty : envelope.method.isEmpty = false := by
    rw [Bool.eq_false_iff]
    intro hempty
    rw [String.isEmpty_iff.1 hempty] at hmethod
    cases hmethod
  have hparse := Definition.parse_of_long bound hdigits hlong
  rw [← hmethod] at hparse
  have hprepare : (PendingCall.ofEnvelope envelope).prepare crypto.hasher bound separator gatewayId =
      .error (.fault (.numeralLength digits.length)) :=
    MetaCall.prepare_of_parse_error hempty htext hheader hparse
  unfold ofMessage
  rw [Outcome.bind_of_eq_ok (Outcome.mapError_eq_ok.2 henvelope)]
  dsimp only
  rw [hprepare]
  rfl

/-- Every character is written in four bytes at most. -/
theorem Bytes.length_utf8_le (chars : List Char) :
    (utf8 (String.ofList chars)).length ≤ 4 * chars.length := by
  induction chars with
  | nil => exact Nat.le_refl 0
  | cons c rest ih =>
    have hfirst : (utf8 (String.singleton c)).length = c.utf8Size := String.utf8ByteSize_singleton
    have hle := c.utf8Size_le_four
    rw [String.ofList_cons, utf8_append, List.length_append, List.length_cons]
    omega

/-- A method whose argument has a size of that many digits. -/
def sizedMethod (count : Nat) : String :=
  String.ofList ("f(uint".toList ++ List.replicate count '1' ++ " x)".toList)

theorem length_utf8_sizedMethod (count : Nat) :
    (Bytes.utf8 (sizedMethod count)).length ≤ 4 * (count + 9) := by
  have hle := Bytes.length_utf8_le ("f(uint".toList ++ List.replicate count '1' ++ " x)".toList)
  rw [List.length_append, List.length_append, List.length_replicate] at hle
  have hstart : "f(uint".toList.length = 6 := rfl
  have hend : " x)".toList.length = 3 := rfl
  unfold sizedMethod
  omega

theorem exists_sizedMessage : ∃ message,
    Envelope.decode message = .ok (.blank (sizedMethod 4301) []) := by
  have hshort : (Bytes.utf8 (sizedMethod 4301)).length < Bytes.capacity 4 :=
    Nat.lt_of_le_of_lt (length_utf8_sizedMethod 4301) (by decide)
  exact Envelope.exists_decode_blank hshort (by decide)

theorem VerifiedCall.ofMessage_of_sizedMethod [Stack] {message : Bytes} {count : Nat}
    (hcount : numeralLimit < count)
    (hmessage : Envelope.decode message = .ok (.blank (sizedMethod count) []))
    (crypto : Crypto) (bound : Int) (separator gatewayId : Bytes) :
    ofMessage crypto bound separator gatewayId message = .error (.fault (.numeralLength count)) := by
  have hdigits : ∀ c ∈ List.replicate count '1', c.isDigit = true := by
    intro c hc
    rw [List.eq_of_mem_replicate hc]
    rfl
  have hlength : (List.replicate count '1').length = count := List.length_replicate
  have hresult := ofMessage_of_long hmessage String.toList_ofList hdigits (hlength.symm ▸ hcount)
    crypto bound separator gatewayId
  rwa [hlength] at hresult

theorem verify_of_sizedMethod [Stack] {context : SigningContext} (hfits : context.Fits)
    {message : Bytes}
    {count : Nat} (hcount : numeralLimit < count)
    (hmessage : Envelope.decode message = .ok (.blank (sizedMethod count) [])) :
    context.verify message = .error (.fault (.numeralLength count)) := by
  obtain ⟨separator, hseparator⟩ := hfits.exists_separator
  unfold SigningContext.verify
  rw [hseparator]
  exact VerifiedCall.ofMessage_of_sizedMethod hcount hmessage _ _ separator _

end SignedRelay
