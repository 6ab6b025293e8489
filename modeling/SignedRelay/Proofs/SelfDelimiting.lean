import SignedRelay.Proofs.EnvelopeCodec
import SignedRelay.Proofs.ProxyCodec

/-!
# Layouts tell where they end

A reader that has read a value from some bytes reads it again from the same bytes with anything behind
them, and runs out of bytes on every strict part of them from the front. This is kept by reading one
field after the other, wherever the cut falls: no field is checked before all of its bytes are there.
Main statement: cut short, an envelope or a call of a proxy account is reported as such, and made longer
by its surplus, so that no accepted input goes on with another one.
-/
namespace SignedRelay

namespace Wire

variable {α β : Type}

/-- The bytes of a value tell where they end: whatever stands behind them is left, and of any strict part
from the front the reader asks for bytes that only the whole has. -/
structure Delimits (reader : Reader α) (passed : Nat) (value : α) (data : Bytes) : Prop where
  extended : ∀ rest, reader ⟨passed, data ++ rest⟩ = .ok (value, ⟨passed + data.length, rest⟩)
  cut : ∀ front back, front ++ back = data → back ≠ [] → ∃ needed,
    passed + front.length < needed ∧ needed ≤ passed + data.length ∧
      reader ⟨passed, front⟩ = .error (.short needed (passed + front.length))

/-- A cut through two byte strings leaves all of the first and a part of the second, or a strict part of
the first. -/
theorem cut_append {front back data more : Bytes} (h : front ++ back = data ++ more) :
    (∃ inner, front = data ++ inner ∧ inner ++ back = more) ∨
      ∃ missing, front ++ missing = data ∧ missing ≠ [] := by
  obtain ⟨missing, hdata, hback⟩ | ⟨inner, hfront, hmore⟩ := List.append_eq_append_iff.1 h
  · by_cases hmissing : missing = []
    · subst hmissing
      rw [List.append_nil] at hdata
      exact .inl ⟨[], by rw [hdata, List.append_nil], hback⟩
    · exact .inr ⟨missing, hdata.symm, hmissing⟩
  · exact .inl ⟨inner, hfront, hmore.symm⟩

namespace Delimits

theorem pure (value : α) (passed : Nat) : Delimits (pure value) passed value [] where
  extended _ := rfl
  cut _ _ h hback := absurd (List.append_eq_nil_iff.1 h).2 hback

theorem bind {first : Reader α} {next : α → Reader β} {passed : Nat} {a : α} {b : β}
    {data more : Bytes} (hfirst : Delimits first passed a data)
    (hnext : Delimits (next a) (passed + data.length) b more) :
    Delimits (first >>= next) passed b (data ++ more) := by
  have step {cursor after : Cursor} (h : first cursor = .ok (a, after)) :
      (first >>= next) cursor = next a after := by
    show (first cursor >>= fun found => next found.1 found.2) = _
    rw [h]
    rfl
  have stop {cursor : Cursor} {error : Error} (h : first cursor = .error error) :
      (first >>= next) cursor = .error error := by
    show (first cursor >>= fun found => next found.1 found.2) = _
    rw [h]
    rfl
  constructor
  · intro rest
    rw [List.append_assoc, step (hfirst.extended _), hnext.extended, List.length_append,
      Nat.add_assoc]
  · intro front back h hback
    rw [List.length_append]
    obtain ⟨inner, rfl, hmore⟩ | ⟨missing, hdata, hmissing⟩ := cut_append h
    · obtain ⟨needed, hlt, hle, hshort⟩ := hnext.cut inner back hmore hback
      rw [List.length_append, ← Nat.add_assoc]
      exact ⟨needed, hlt, by omega, by rw [step (hfirst.extended inner), hshort]⟩
    · obtain ⟨needed, hlt, hle, hshort⟩ := hfirst.cut front missing hdata hmissing
      exact ⟨needed, hlt, by omega, stop hshort⟩

end Delimits

/-- Whatever is read has bytes that tell where they end. -/
def SelfDelimiting (reader : Reader α) : Prop :=
  ∀ cursor value after, reader cursor = .ok (value, after) →
    ∃ data, cursor.rest = data ++ after.rest ∧ Delimits reader cursor.passed value data

namespace SelfDelimiting

theorem pure (value : α) : SelfDelimiting (pure value) := by
  intro cursor found after h
  cases h
  exact ⟨[], rfl, Delimits.pure value _⟩

theorem bind {first : Reader α} {next : α → Reader β} (hfirst : SelfDelimiting first)
    (hnext : ∀ a, SelfDelimiting (next a)) : SelfDelimiting (first >>= next) := by
  intro cursor b after h
  have hsteps : (first cursor >>= fun found => next found.1 found.2) = .ok (b, after) := h
  obtain ⟨⟨a, middle⟩, ha, hb⟩ := Outcome.bind_eq_ok.1 hsteps
  obtain ⟨data, hrest, hdata⟩ := hfirst _ _ _ ha
  obtain ⟨more, hmiddle, hmore⟩ := hnext a _ _ _ hb
  have hpassed : middle.passed = cursor.passed + data.length := by
    have hread := hdata.extended middle.rest
    rw [← hrest, ha] at hread
    exact congrArg Cursor.passed (Prod.mk.inj (Except.ok.inj hread)).2
  rw [hpassed] at hmore
  refine ⟨data ++ more, ?_, hdata.bind hmore⟩
  rw [hrest, hmiddle, List.append_assoc]

/-- What a whole byte string is read as is delimited by it. -/
theorem delimits_of_read {reader : Reader α} (h : SelfDelimiting reader) {data : Bytes} {value : α}
    (hread : read reader data = .ok value) : Delimits reader 0 value data := by
  unfold read at hread
  split at hread
  · cases hread
  · next found after hreader =>
    obtain ⟨bytes, hrest, hbytes⟩ := h _ _ _ hreader
    split at hread
    · next hempty =>
      cases hread
      have hdata : data = bytes ++ after.rest := hrest
      rw [hdata, List.isEmpty_iff.1 hempty, List.append_nil]
      exact hbytes
    · cases hread

section Fields

theorem take (size : Nat) : SelfDelimiting (take size) := by
  intro cursor field after h
  unfold Wire.take at h
  split at h
  · next hsize =>
    cases h
    have hlength : (cursor.rest.take size).length = size := List.length_take_of_le hsize
    refine ⟨cursor.rest.take size, (List.take_append_drop size cursor.rest).symm, ?_, ?_⟩
    · intro rest
      have hroom : size ≤ (cursor.rest.take size ++ rest).length := by
        rw [List.length_append, hlength]
        exact Nat.le_add_right size rest.length
      unfold Wire.take
      rw [if_pos hroom, List.take_left' hlength, List.drop_left' hlength, hlength]
    · intro front back hdata hback
      have hsplit := congrArg List.length hdata
      rw [List.length_append, hlength] at hsplit
      have hpos := List.length_pos_iff.2 hback
      have hroom : ¬size ≤ front.length := by omega
      refine ⟨cursor.passed + size, by omega, by omega, ?_⟩
      unfold Wire.take
      rw [if_neg hroom]
  · cases h

theorem number (size : Nat) : SelfDelimiting (number size) := (take size).bind fun _ => pure _

theorem vector : SelfDelimiting vector := (number 4).bind take

theorem decoded (field : Bytes) : SelfDelimiting (decoded field) := by
  unfold Wire.decoded
  split
  · exact pure _
  · intro cursor value after h
    cases h

theorem text : SelfDelimiting text := vector.bind decoded

end Fields

end SelfDelimiting

namespace Delimits

variable {reader : Reader α} {value : α} {data : Bytes}

theorem read_append (h : Delimits reader 0 value data) {rest : Bytes} (hrest : rest ≠ []) :
    read reader (data ++ rest) = .error (.trailing rest.length) := by
  have hreader : reader (.start (data ++ rest)) = .ok (value, ⟨0 + data.length, rest⟩) :=
    h.extended rest
  unfold read
  rw [hreader]
  dsimp only
  rw [if_neg (by simpa using hrest)]

theorem read_of_front (h : Delimits reader 0 value data) {front : Bytes} (hfront : front <+: data)
    (hne : front ≠ data) : ∃ needed, front.length < needed ∧ needed ≤ data.length ∧
      read reader front = .error (.short needed front.length) := by
  obtain ⟨back, hdata⟩ := hfront
  have hback : back ≠ [] := by
    rintro rfl
    exact hne (by rw [← hdata, List.append_nil])
  obtain ⟨needed, hlt, hle, hshort⟩ := h.cut front back hdata hback
  rw [Nat.zero_add] at hlt hle hshort
  have hreader : reader (.start front) = .error (.short needed front.length) := hshort
  refine ⟨needed, hlt, hle, ?_⟩
  unfold read
  rw [hreader]

end Delimits

/-- An accepted input that stands in front of another accepted one is that one. -/
theorem eq_of_front {ε : Type} {decode : Bytes → Except ε α} {data other : Bytes} {value : α}
    (hsurplus : ∀ rest, rest ≠ [] → ∃ error, decode (data ++ rest) = .error error)
    (hother : decode other = .ok value) (h : data <+: other) : data = other := by
  obtain ⟨rest, rfl⟩ := h
  by_cases hrest : rest = []
  · rw [hrest, List.append_nil]
  · obtain ⟨error, herror⟩ := hsurplus rest hrest
    rw [herror] at hother
    cases hother

end Wire

open Wire (SelfDelimiting Delimits eq_of_front)

namespace Envelope

theorem selfDelimiting_reader : SelfDelimiting reader := by
  unfold reader
  exact (SelfDelimiting.take 64).bind fun _ => (SelfDelimiting.number 1).bind fun _ =>
    (SelfDelimiting.take 32).bind fun _ => (SelfDelimiting.take 32).bind fun _ =>
    SelfDelimiting.text.bind fun _ => SelfDelimiting.text.bind fun _ =>
    (SelfDelimiting.take 32).bind fun _ => SelfDelimiting.text.bind fun _ =>
    SelfDelimiting.vector.bind fun _ => SelfDelimiting.pure _

variable {data : Bytes} {envelope : Envelope}

theorem decode_append (h : decode data = .ok envelope) {rest : Bytes} (hrest : rest ≠ []) :
    decode (data ++ rest) = .error (.envelopeTrailing rest.length) := by
  have hread := (selfDelimiting_reader.delimits_of_read (decode_eq_ok.1 h)).read_append hrest
  unfold decode
  rw [hread]
  rfl

theorem decode_of_front (h : decode data = .ok envelope) {front : Bytes} (hfront : front <+: data)
    (hne : front ≠ data) : ∃ needed, front.length < needed ∧ needed ≤ data.length ∧
      decode front = .error (.envelopeTruncated needed front.length) := by
  obtain ⟨needed, hlt, hle, hread⟩ :=
    (selfDelimiting_reader.delimits_of_read (decode_eq_ok.1 h)).read_of_front hfront hne
  refine ⟨needed, hlt, hle, ?_⟩
  unfold decode
  rw [hread]
  rfl

end Envelope

namespace Proxy.Call

theorem selfDelimiting_reader : SelfDelimiting reader := by
  unfold reader
  exact (SelfDelimiting.number 8).bind fun _ => (SelfDelimiting.number 16).bind fun _ =>
    SelfDelimiting.vector.bind fun _ => SelfDelimiting.vector.bind fun _ =>
    SelfDelimiting.vector.bind fun _ => SelfDelimiting.pure _

variable {data : Bytes} {call : Call}

theorem exists_delimits_of_decode (h : decode data = .ok call) :
    ∃ fields, Delimits reader 0 fields data := by
  obtain ⟨fields, hread, _⟩ := decode_eq_ok.1 h
  exact ⟨fields, selfDelimiting_reader.delimits_of_read hread⟩

theorem decode_append (h : decode data = .ok call) {rest : Bytes} (hrest : rest ≠ []) :
    decode (data ++ rest) = .error .callTrailing := by
  obtain ⟨_, hdelimits⟩ := exists_delimits_of_decode h
  unfold decode
  rw [hdelimits.read_append hrest]
  rfl

theorem decode_of_front (h : decode data = .ok call) {front : Bytes} (hfront : front <+: data)
    (hne : front ≠ data) : decode front = .error .callTruncated := by
  obtain ⟨_, hdelimits⟩ := exists_delimits_of_decode h
  obtain ⟨needed, _, _, hread⟩ := hdelimits.read_of_front hfront hne
  unfold decode
  rw [hread]
  rfl

end Proxy.Call

/-- Of an accepted envelope, and of an accepted call of a proxy account, every strict part from the front
is reported as too short, and every longer input by what is behind it: the report on an envelope says
how long the input is, that it should be longer, but no longer than the envelope, and how long a surplus
is. No accepted input is the front of another. -/
theorem layouts_self_delimiting :
    (∀ data envelope, Envelope.decode data = .ok envelope →
      (∀ front, front <+: data → front ≠ data → ∃ needed,
        front.length < needed ∧ needed ≤ data.length ∧
          Envelope.decode front = .error (.envelopeTruncated needed front.length)) ∧
      (∀ rest, rest ≠ [] →
        Envelope.decode (data ++ rest) = .error (.envelopeTrailing rest.length)) ∧
      ∀ other found, Envelope.decode other = .ok found → data <+: other → data = other) ∧
    ∀ data call, Proxy.Call.decode data = .ok call →
      (∀ front, front <+: data → front ≠ data →
        Proxy.Call.decode front = .error .callTruncated) ∧
      (∀ rest, rest ≠ [] → Proxy.Call.decode (data ++ rest) = .error .callTrailing) ∧
      ∀ other found, Proxy.Call.decode other = .ok found → data <+: other → data = other := by
  constructor
  · intro data envelope h
    refine ⟨fun _ => Envelope.decode_of_front h, fun _ => Envelope.decode_append h, ?_⟩
    intro other found hother
    exact eq_of_front (fun _ hrest => ⟨_, Envelope.decode_append h hrest⟩) hother
  · intro data call h
    refine ⟨fun _ => Proxy.Call.decode_of_front h, fun _ => Proxy.Call.decode_append h, ?_⟩
    intro other found hother
    exact eq_of_front (fun _ hrest => ⟨_, Proxy.Call.decode_append h hrest⟩) hother

/-- An envelope and a call, each cut between the two bytes of a letter, and each with a byte behind
it. -/
theorem layouts_self_delimiting_accented :
    ∃ envelope call, Envelope.decode envelope = .ok (.blank "é()" []) ∧
      Proxy.Call.decode call = .ok { gas := 7, amount := 5, receiverId := "é", methodName := "" } ∧
      (∃ needed, Envelope.decode (envelope.take 174) = .error (.envelopeTruncated needed 174)) ∧
      Envelope.decode (envelope ++ [0x00]) = .error (.envelopeTrailing 1) ∧
      Proxy.Call.decode (call.take 29) = .error .callTruncated ∧
      Proxy.Call.decode (call ++ [0x00]) = .error .callTrailing := by
  let envelope := (Envelope.encode (.blank "é()" [])).toOption.getD []
  let call := (Proxy.Call.encode
    { gas := 7, amount := 5, receiverId := "é", methodName := "" }).toOption.getD []
  have henvelope : Envelope.decode envelope = .ok (.blank "é()" []) :=
    Outcome.eq_ok_of_toOption (by decide +kernel)
  have hcall : Proxy.Call.decode call =
      .ok { gas := 7, amount := 5, receiverId := "é", methodName := "" } :=
    Outcome.eq_ok_of_toOption (by decide +kernel)
  obtain ⟨hshort, hlong, _⟩ := layouts_self_delimiting.1 envelope _ henvelope
  obtain ⟨hshortCall, hlongCall, _⟩ := layouts_self_delimiting.2 call _ hcall
  have hsurplus : ([0x00] : Bytes) ≠ [] := List.cons_ne_nil _ _
  obtain ⟨needed, _, _, hcut⟩ :=
    hshort (envelope.take 174) ⟨_, List.take_append_drop 174 envelope⟩ (by decide +kernel)
  have hlength : (envelope.take 174).length = 174 := by decide +kernel
  rw [hlength] at hcut
  exact ⟨envelope, call, henvelope, hcall, ⟨needed, hcut⟩, hlong _ hsurplus,
    hshortCall _ ⟨_, List.take_append_drop 29 call⟩ (by decide +kernel), hlongCall _ hsurplus⟩

end SignedRelay
