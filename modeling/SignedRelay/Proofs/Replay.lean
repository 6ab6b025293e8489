import SignedRelay.Proofs.Admission

/-!
# Replay protection over whole runs

What a run accepts, from any ledgers. One step accepts nothing and leaves the ledgers alone, or
accepts the call that is due and moves on by one. Main statement: in a run from fresh ledgers, the
nonces that a ledger has accepted of a sender count up from zero to its next nonce.
-/
namespace SignedRelay

namespace Step

variable [Stack]

/-- A step that accepts no call leaves no trace, and an accepted call was due. -/
theorem accepted?_cases (step : Step) (ledgers : Ledgers) :
    (step.accepted? ledgers = none ∧ (step.run ledgers).2 = ledgers) ∨
    ∃ call, step.accepted? ledgers = some call ∧
      call.nonce = (ledgers step.station.ledger).get call.sender ∧
      (step.run ledgers).2 = ledgers.advance step.station.ledger call.sender := by
  obtain ⟨error, hrun⟩ | ⟨answer, call, hverify, ⟨hconsumes, hrun⟩ | ⟨hconsumes, hnonce, hrun⟩⟩ :=
    run_cases step ledgers
  · left
    refine ⟨?_, by rw [hrun]⟩
    unfold accepted?
    rw [hrun]
  · left
    refine ⟨?_, by rw [hrun]⟩
    unfold accepted?
    rw [hrun, hverify]
    exact if_neg (by simp [hconsumes])
  · right
    refine ⟨call, ?_, hnonce, by rw [hrun]⟩
    unfold accepted?
    rw [hrun, hverify]
    exact if_pos hconsumes

theorem verify_of_accepted? {step : Step} {ledgers : Ledgers} {call : VerifiedCall}
    (h : step.accepted? ledgers = some call) :
    step.station.gateway.verify step.operation.message = .ok call := by
  unfold accepted? at h
  split at h
  · next answer found hrun hverify =>
    split at h
    · cases h
      exact hverify
    · cases h
  · cases h

/-- Every success of a consuming operation counts as an acceptance. -/
theorem accepted?_isSome_iff (step : Step) (ledgers : Ledgers) :
    (step.accepted? ledgers).isSome ↔
      step.operation.consumes = true ∧ ∃ answer, (step.run ledgers).1 = .ok answer := by
  unfold accepted?
  obtain ⟨error, hrun⟩ | ⟨answer, call, hverify, ⟨hconsumes, hrun⟩ | ⟨hconsumes, _, hrun⟩⟩ :=
    run_cases step ledgers
  · simp [hrun]
  · simp [hrun, hverify, hconsumes]
  · simp [hrun, hverify, hconsumes]

theorem runAll_append (earlier later : List Step) (ledgers : Ledgers) :
    (runAll (earlier ++ later) ledgers).2 = (runAll later (runAll earlier ledgers).2).2 := by
  induction earlier generalizing ledgers with
  | nil => rfl
  | cons step rest ih => exact ih (step.run ledgers).2

end Step

namespace VerifiedCall

theorem noncesOf_append (sender : Bytes) (earlier later : List VerifiedCall) :
    noncesOf sender (earlier ++ later) = noncesOf sender earlier ++ noncesOf sender later := by
  unfold noncesOf
  rw [List.filter_append, List.map_append]

theorem noncesOf_singleton (sender : Bytes) (call : VerifiedCall) :
    noncesOf sender [call] = if call.sender = sender then [call.nonce] else [] := by
  unfold noncesOf
  by_cases h : call.sender = sender <;> simp [h]

/-- Calls whose nonces differ for each sender differ in sender or nonce. -/
theorem nodup_sender_nonce {calls : List VerifiedCall}
    (h : ∀ sender, (noncesOf sender calls).Nodup) :
    (calls.map fun call => (call.sender, call.nonce)).Nodup := by
  induction calls with
  | nil => exact List.nodup_nil
  | cons call rest ih =>
    have hsplit (sender : Bytes) := noncesOf_append sender [call] rest
    rw [List.map_cons, List.nodup_cons]
    constructor
    · intro hmem
      obtain ⟨other, hother, heq⟩ := List.mem_map.1 hmem
      have hself := h call.sender
      rw [List.singleton_append] at hsplit
      rw [hsplit, noncesOf_singleton, if_pos rfl, List.singleton_append, List.nodup_cons] at hself
      obtain ⟨hsender, hnonce⟩ := Prod.mk.inj heq
      exact hself.1 (List.mem_map.2 ⟨other, List.mem_filter.2 ⟨hother, by simp [hsender]⟩, hnonce⟩)
    · refine ih fun sender => ?_
      have hsender := h sender
      rw [← List.singleton_append, hsplit] at hsender
      exact (List.nodup_append.1 hsender).2.1

end VerifiedCall

namespace Step

variable [Stack]

/-- What one step adds at one ledger: nothing of a sender, or the nonce that is due. -/
theorem noncesOf_step (step : Step) (ledgers : Ledgers) (index : Nat) (sender : Bytes) :
    ∃ added, (((step.run ledgers).2 index).get sender = (ledgers index).get sender + added) ∧
      VerifiedCall.noncesOf sender
          (if step.station.ledger = index then (step.accepted? ledgers).toList else []) =
        (List.range' ((ledgers index).get sender) added).map Int.ofNat := by
  obtain ⟨hnone, hrun⟩ | ⟨call, hsome, hnonce, hrun⟩ := accepted?_cases step ledgers
  · refine ⟨0, by rw [hrun, Nat.add_zero], ?_⟩
    rw [hnone, Option.toList_none, ite_self]
    rfl
  · have hgrown := ledgers.grownAt_advance step.station.ledger call.sender index sender
    rw [hrun, hsome, Option.toList_some]
    by_cases hindex : step.station.ledger = index
    · subst hindex
      rw [if_pos rfl, VerifiedCall.noncesOf_singleton]
      by_cases hsender : call.sender = sender
      · subst hsender
        refine ⟨1, by rw [hgrown, if_pos ⟨rfl, rfl⟩], ?_⟩
        rw [if_pos rfl, hnonce]
        rfl
      · refine ⟨0, by rw [hgrown, if_neg fun h => hsender h.2.symm, Nat.add_zero], ?_⟩
        rw [if_neg hsender]
        rfl
    · refine ⟨0, by rw [hgrown, if_neg fun h => hindex h.1.symm, Nat.add_zero], ?_⟩
      rw [if_neg hindex]
      rfl

theorem acceptedAt_cons (index : Nat) (step : Step) (rest : List Step) (ledgers : Ledgers) :
    acceptedAt index (step :: rest) ledgers =
      (if step.station.ledger = index then (step.accepted? ledgers).toList else []) ++
        acceptedAt index rest (step.run ledgers).2 := by
  show (if step.station.ledger = index then _ else _) = _
  split <;> rfl

/-- What a run adds at one ledger: the nonces of a sender that follow the ones before the run. -/
theorem noncesOf_acceptedAt (steps : List Step) (ledgers : Ledgers) (index : Nat) (sender : Bytes) :
    ∃ added, (((runAll steps ledgers).2 index).get sender = (ledgers index).get sender + added) ∧
      VerifiedCall.noncesOf sender (acceptedAt index steps ledgers) =
        (List.range' ((ledgers index).get sender) added).map Int.ofNat := by
  induction steps generalizing ledgers with
  | nil => exact ⟨0, rfl, rfl⟩
  | cons step rest ih =>
    obtain ⟨first, hfirst, hstep⟩ := noncesOf_step step ledgers index sender
    obtain ⟨others, hothers, hrest⟩ := ih (step.run ledgers).2
    refine ⟨first + others, ?_, ?_⟩
    · show ((runAll rest (step.run ledgers).2).2 index).get sender = _
      rw [hothers, hfirst, Nat.add_assoc]
    · rw [acceptedAt_cons, VerifiedCall.noncesOf_append, hstep, hrest, hfirst, ← List.map_append,
        List.range'_append_1]

theorem nodup_noncesOf_acceptedAt (steps : List Step) (ledgers : Ledgers) (index : Nat)
    (sender : Bytes) : (VerifiedCall.noncesOf sender (acceptedAt index steps ledgers)).Nodup := by
  obtain ⟨added, _, hnonces⟩ := noncesOf_acceptedAt steps ledgers index sender
  rw [hnonces]
  refine List.Pairwise.map Int.ofNat ?_ List.nodup_range'
  intro a b hne heq
  exact hne (Int.ofNat.inj heq)

theorem get_le_runAll (steps : List Step) (ledgers : Ledgers) (index : Nat) (sender : Bytes) :
    (ledgers index).get sender ≤ ((runAll steps ledgers).2 index).get sender := by
  obtain ⟨added, hadded, _⟩ := noncesOf_acceptedAt steps ledgers index sender
  omega

/-- Once a call is accepted, its sender's next nonce stays beyond it. -/
theorem nonce_lt_of_accepted? {step : Step} {ledgers : Ledgers} {call : VerifiedCall}
    (h : step.accepted? ledgers = some call) (later : List Step) :
    call.nonce < ((runAll (step :: later) ledgers).2 step.station.ledger).get call.sender := by
  obtain ⟨hnone, _⟩ | ⟨found, hfound, hdue, hafter⟩ := accepted?_cases step ledgers
  · rw [hnone] at h
    cases h
  obtain rfl : found = call := Option.some.inj (hfound.symm.trans h)
  have hgrown := ledgers.grownAt_advance step.station.ledger found.sender step.station.ledger
    found.sender
  rw [if_pos ⟨rfl, rfl⟩, ← hafter] at hgrown
  have hlater := get_le_runAll later (step.run ledgers).2 step.station.ledger found.sender
  show found.nonce < ((runAll later (step.run ledgers).2).2 step.station.ledger).get found.sender
  omega

/-- Whatever messages arrive and whichever gateways share a ledger: the accepted nonces of a sender
count up from zero to its next nonce, so that none is accepted twice and none is skipped, and the
next nonce never decreases on the way. -/
theorem accepted_nonces_count_up (steps : List Step) (index : Nat) (sender : Bytes) :
    VerifiedCall.noncesOf sender (acceptedAt index steps .fresh) =
      (List.range (((runAll steps .fresh).2 index).get sender)).map Int.ofNat ∧
    ((acceptedAt index steps .fresh).map fun call => (call.sender, call.nonce)).Nodup ∧
    ∀ earlier later, steps = earlier ++ later →
      ((runAll earlier .fresh).2 index).get sender ≤ ((runAll steps .fresh).2 index).get sender := by
  refine ⟨?_, ?_, ?_⟩
  · obtain ⟨added, hadded, hnonces⟩ := noncesOf_acceptedAt steps .fresh index sender
    have hfresh : (Ledgers.fresh index).get sender = 0 := NonceLedger.get_empty sender
    rw [hfresh] at hadded hnonces
    rw [hadded, Nat.zero_add, List.range_eq_range']
    exact hnonces
  · exact VerifiedCall.nodup_sender_nonce fun sender =>
      nodup_noncesOf_acceptedAt steps .fresh index sender
  · rintro earlier later rfl
    rw [runAll_append]
    exact get_le_runAll later _ index sender

end Step

end SignedRelay
