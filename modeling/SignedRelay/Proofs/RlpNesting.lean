import SignedRelay.Outcome
import SignedRelay.Rlp

/-!
# How deep a value nests

The nesting of a value counts its lists, its height the steps to its innermost item. The walk that keeps a
value within the bound stops at the first list that is too deep, and needs room on the stack for every step.
Main statements: a value is read exactly if its lists stay within the bound and its height within the room,
and where the room covers the bound, it is the bound alone that counts.
-/
namespace SignedRelay.Rlp

open Outcome

mutual

/-- The innermost lists of a value are enclosed by one list less than the nesting counts. -/
theorem listAt_iff_lt_nesting : ∀ (value : Rlp) {depth : Nat},
    ListAt value depth ↔ depth < value.nesting
  | bytes data, depth => by
    rw [nesting]
    constructor
    · intro h
      cases h
    · intro h
      exact absurd h (Nat.not_lt_zero depth)
  | list items, 0 => by
    rw [nesting]
    exact ⟨fun _ => Nat.succ_pos _, fun _ => .outermost⟩
  | list items, depth + 1 => by
    rw [nesting, Nat.add_lt_add_iff_right, ← exists_listAt_iff_lt_nestingAll items]
    constructor
    · rintro (_ | ⟨hmem, hinside⟩)
      exact ⟨_, hmem, hinside⟩
    · rintro ⟨value, hmem, hinside⟩
      exact .inside hmem hinside

theorem exists_listAt_iff_lt_nestingAll : ∀ (values : List Rlp) {depth : Nat},
    (∃ value ∈ values, ListAt value depth) ↔ depth < nestingAll values
  | [], depth => by
    rw [nestingAll]
    simp
  | value :: rest, depth => by
    simp only [List.mem_cons, or_and_right, exists_or, exists_eq_left]
    rw [nestingAll, listAt_iff_lt_nesting value, exists_listAt_iff_lt_nestingAll rest]
    omega

end

/-- The bound is kept by the nesting exactly if it is kept at each list. -/
theorem forall_listAt_lt_iff {value : Rlp} {bound : Int} :
    (∀ depth, value.ListAt depth → (depth : Int) < bound) ↔
      ¬ (0 < value.nesting ∧ bound < value.nesting) := by
  simp only [listAt_iff_lt_nesting]
  constructor
  · rintro h ⟨hpos, hdeep⟩
    have hlast := h (value.nesting - 1) (by omega)
    omega
  · intro h depth hdepth
    omega

theorem nesting_le_nestingAll {values : List Rlp} {value : Rlp} (h : value ∈ values) :
    value.nesting ≤ nestingAll values := by
  induction values with
  | nil => cases h
  | cons first rest ih =>
    rw [nestingAll]
    rcases List.mem_cons.1 h with rfl | hrest
    · exact Nat.le_max_left _ _
    · exact Nat.le_trans (ih hrest) (Nat.le_max_right _ _)

theorem heightAll_le_iff {items : List Rlp} {limit : Nat} :
    heightAll items ≤ limit ↔ ∀ item ∈ items, item.height + 1 ≤ limit := by
  induction items with
  | nil => simp [heightAll]
  | cons item rest ih => rw [heightAll, Nat.max_le, ih, List.forall_mem_cons]

theorem height_lt_of_mem {items : List Rlp} {item : Rlp} (h : item ∈ items) :
    item.height < (list items).height := by
  rw [height]
  exact heightAll_le_iff.1 (Nat.le_refl _) item h

/-- A list stays within a bound exactly if it does so without its items, and each item does one step
further in. -/
theorem height_list_le_iff {items : List Rlp} {depth bound : Int} :
    depth + (list items).height ≤ bound ↔
      depth ≤ bound ∧ ∀ item ∈ items, depth + 1 + item.height ≤ bound := by
  have hlimit : depth + (list items).height ≤ bound ↔
      depth ≤ bound ∧ heightAll items ≤ (bound - depth).toNat := by
    rw [height]
    omega
  rw [hlimit, heightAll_le_iff]
  refine and_congr_right fun hdepth => forall₂_congr fun item _ => ?_
  omega

mutual

/-- An innermost item that is no list is not counted as nesting, but the list around it is. -/
theorem height_le_nesting : ∀ value : Rlp, value.height ≤ value.nesting
  | bytes data => by
    rw [height]
    exact Nat.zero_le _
  | list items => by
    rw [height, nesting]
    exact heightAll_le_nestingAll items

theorem heightAll_le_nestingAll : ∀ values : List Rlp, heightAll values ≤ nestingAll values + 1
  | [] => by
    rw [heightAll]
    exact Nat.zero_le _
  | value :: rest => by
    have hvalue := height_le_nesting value
    have hrest := heightAll_le_nestingAll rest
    rw [heightAll, nestingAll]
    omega

end

section Walk

variable {bound : Int}

/-- Everything that a value needs to be kept where `depth` lists enclose it: room for each step, and no list
at the bound. -/
structure KeptAt (bound : Int) (depth : Nat) (room : Int) (value : Rlp) : Prop where
  height : value.height ≤ room
  lists : ∀ level, value.ListAt level → (depth : Int) + level < bound

theorem keptAt_bytes_iff {depth : Nat} {room : Int} {data : Bytes} :
    KeptAt bound depth room (bytes data) ↔ 0 ≤ room := by
  constructor
  · intro h
    have hheight := h.height
    rwa [Rlp.height, Int.natCast_zero] at hheight
  · intro hroom
    refine ⟨?_, fun level hlist => ?_⟩
    · rwa [Rlp.height, Int.natCast_zero]
    · cases hlist

theorem keptAt_list_iff {depth : Nat} {room : Int} {items : List Rlp} :
    KeptAt bound depth room (list items) ↔
      0 ≤ room ∧ (depth : Int) < bound ∧ ∀ item ∈ items, KeptAt bound (depth + 1) (room - 1) item := by
  have hheight : 0 + ((list items).height : Int) ≤ room ↔
      0 ≤ room ∧ ∀ item ∈ items, 0 + 1 + (item.height : Int) ≤ room := height_list_le_iff
  rw [Int.zero_add] at hheight
  constructor
  · rintro ⟨hroom, hlists⟩
    obtain ⟨hroom, hitems⟩ := hheight.1 hroom
    refine ⟨hroom, by simpa using hlists 0 .outermost, fun item hmem => ⟨?_, fun level hlist => ?_⟩⟩
    · have hitem := hitems item hmem
      omega
    · have hlevel := hlists (level + 1) (.inside hmem hlist)
      omega
  · rintro ⟨hroom, hdepth, hitems⟩
    refine ⟨hheight.2 ⟨hroom, fun item hmem => ?_⟩, fun level hlist => ?_⟩
    · have hitem := (hitems item hmem).height
      omega
    · cases hlist with
      | outermost => simpa using hdepth
      | inside hmem hinside =>
        have hlevel := (hitems _ hmem).lists _ hinside
        omega

-- The induction is on the value, for all depths and all room at once.
mutual

theorem bounded_eq_ok_iff : ∀ (value : Rlp) {depth : Nat} {room : Int} {found : Rlp},
    bounded bound depth room value = .ok found ↔ found = value ∧ KeptAt bound depth room value
  | bytes data, depth, room, found => by
    rw [keptAt_bytes_iff]
    unfold bounded
    by_cases hroom : room < 0
    · simp [hroom, Int.not_le.2 hroom]
    · simp [hroom, Int.not_lt.1 hroom, eq_comm]
  | list items, depth, room, found => by
    rw [keptAt_list_iff]
    unfold bounded
    by_cases hroom : room < 0
    · simp [hroom, Int.not_le.2 hroom]
    by_cases hdepth : bound ≤ depth
    · simp [hroom, hdepth, Int.not_lt.2 hdepth]
    rw [if_neg hroom, and_iff_right (Int.not_lt.1 hroom), and_iff_right (Int.not_le.1 hdepth)]
    dsimp only
    rw [if_neg hdepth, map_eq_ok]
    constructor
    · rintro ⟨kept, hkept, rfl⟩
      obtain ⟨rfl, hitems⟩ := (boundedAll_eq_ok_iff items).1 hkept
      exact ⟨rfl, hitems⟩
    · rintro ⟨rfl, hitems⟩
      exact ⟨items, (boundedAll_eq_ok_iff items).2 ⟨rfl, hitems⟩, rfl⟩

theorem boundedAll_eq_ok_iff : ∀ (values : List Rlp) {depth : Nat} {room : Int} {found : List Rlp},
    boundedAll bound depth room values = .ok found ↔
      found = values ∧ ∀ value ∈ values, KeptAt bound depth room value
  | [], depth, room, found => by
    rw [boundedAll, Except.ok.injEq, and_iff_left (List.forall_mem_nil _), eq_comm]
  | value :: rest, depth, room, found => by
    rw [boundedAll, bind_eq_ok, List.forall_mem_cons]
    simp only [bind_eq_ok, pure_eq_ok, bounded_eq_ok_iff value, boundedAll_eq_ok_iff rest]
    constructor
    · rintro ⟨_, ⟨rfl, hvalue⟩, _, ⟨rfl, hrest⟩, rfl⟩
      exact ⟨rfl, hvalue, hrest⟩
    · rintro ⟨rfl, hvalue, hrest⟩
      exact ⟨value, ⟨rfl, hvalue⟩, rest, ⟨rfl, hrest⟩, rfl⟩

end

/-- The walk stops at a list that is too deep, or for want of room: then it has none where it starts, or
runs out of it before it gets as far as the bound. -/
def StopsFor (bound : Int) (depth : Nat) (room : Int) (error : Error) : Prop :=
  error = .encoding (.rlpNesting bound) ∨
  error = .fault .stackExhausted ∧ (room < 0 ∨ depth + room < bound)

theorem StopsFor.outward {depth : Nat} {room : Int} {error : Error} (hdepth : (depth : Int) < bound)
    (h : StopsFor bound (depth + 1) (room - 1) error) : StopsFor bound depth room error :=
  h.imp_right fun ⟨herror, hroom⟩ => ⟨herror, Or.inr (by omega)⟩

mutual

theorem failsOnly_bounded : ∀ (value : Rlp) {depth : Nat} {room : Int},
    FailsOnly (StopsFor bound depth room) (bounded bound depth room value)
  | bytes data, depth, room => by
    unfold bounded
    split
    · next hroom => exact failsOnly_error (Or.inr ⟨rfl, Or.inl hroom⟩)
    · exact failsOnly_ok _
  | list items, depth, room => by
    unfold bounded
    split
    · next hroom => exact failsOnly_error (Or.inr ⟨rfl, Or.inl hroom⟩)
    · dsimp only
      split
      · exact failsOnly_error (Or.inl rfl)
      · next hdepth =>
        have hitems : FailsOnly (StopsFor bound (depth + 1) (room - 1))
            (boundedAll bound (depth + 1) (room - 1) items) := failsOnly_boundedAll items
        exact (hitems.mono fun _ => StopsFor.outward (Int.not_le.1 hdepth)).map _

theorem failsOnly_boundedAll : ∀ (values : List Rlp) {depth : Nat} {room : Int},
    FailsOnly (StopsFor bound depth room) (boundedAll bound depth room values)
  | [], depth, room => by
    rw [boundedAll]
    exact failsOnly_ok _
  | value :: rest, depth, room => by
    rw [boundedAll]
    refine FailsOnly.bind (failsOnly_bounded value) fun first _ => ?_
    refine FailsOnly.bind (failsOnly_boundedAll rest) fun others _ => ?_
    exact failsOnly_pure _

end

end Walk

section Reading

variable [Stack] {bound : Int} {data : Bytes}

theorem decode_eq_ok_iff {value : Rlp} : decode bound data = .ok value ↔
    value? data = some value ∧ value.height ≤ Stack.checking ∧
      ∀ depth, value.ListAt depth → (depth : Int) < bound := by
  unfold decode
  cases value? data with
  | none => simp
  | some found =>
    dsimp only
    rw [bounded_eq_ok_iff, Option.some.injEq]
    constructor
    · rintro ⟨rfl, hheight, hlists⟩
      exact ⟨rfl, Int.ofNat_le.1 hheight, fun depth hlist => by simpa using hlists depth hlist⟩
    · rintro ⟨rfl, hheight, hlists⟩
      exact ⟨rfl, Int.ofNat_le.2 hheight, fun depth hlist => by simpa using hlists depth hlist⟩

/-- What is not read is malformed or nests too deep. Only under a bound beyond the room for checking can
the stack be exhausted instead. -/
theorem decode_cases (bound : Int) (data : Bytes) : (∃ value, decode bound data = .ok value) ∨
    decode bound data = .error (.encoding .rlpMalformed) ∨
    decode bound data = .error (.encoding (.rlpNesting bound)) ∨
    Stack.checking < bound ∧ decode bound data = .error (.fault .stackExhausted) := by
  unfold decode
  split
  · exact Or.inr (Or.inl rfl)
  · next value _ =>
    cases hresult : bounded bound 0 Stack.checking value with
    | ok found => exact Or.inl ⟨found, rfl⟩
    | error error =>
      obtain rfl | ⟨rfl, hdeep⟩ := failsOnly_bounded value error hresult
      · exact Or.inr (Or.inr (Or.inl rfl))
      · exact Or.inr (Or.inr (Or.inr ⟨by omega, rfl⟩))

theorem decodeList_eq_ok_iff {items : List Rlp} :
    decodeList bound data = .ok items ↔ decode bound data = .ok (.list items) := by
  unfold decodeList
  rcases decode bound data with error | (content | found)
  · simp
  · simp
  · simp

/-- The values of a list that is read do not reach the bound: the list itself is one step of it. -/
theorem height_lt_of_decodeList {values : List Rlp} (h : decodeList bound data = .ok values) :
    ∀ value ∈ values, (value.height : Int) < bound := by
  intro value hmem
  obtain ⟨_, _, hlists⟩ := decode_eq_ok_iff.1 (decodeList_eq_ok_iff.1 h)
  have hwithin := forall_listAt_lt_iff.1 hlists
  rw [nesting] at hwithin
  have hheight := height_le_nesting value
  have hnesting := nesting_le_nestingAll hmem
  omega

end Reading

end SignedRelay.Rlp
