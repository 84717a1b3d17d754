/-
What is put right in a list of algorithms, and that nothing else is. Some
devices list Curve25519 where it does not belong; the correction strikes
these entries out and gives the slot of decryption the entry that should
have been there.

# What belongs

An entry is `Misplaced` in a slot if it names key agreement under the
algorithm of signatures, in any slot, or signatures in a slot that does not
sign. A list is put right by leaving the misplaced entries out, each other
entry where it is and as often as it is there (`proper`), and by one entry
at the end of the list of decryption where that list had none like it.

# One outcome

`Corrected` says of two lists what became of each slot, so there is one
outcome for each list, and the correction has it (`correctCurve25519_exact`).
An outcome is corrected already, so a second correction finds nothing to do.
-/
import SmartCard.OpenPgp.AlgorithmInformation

namespace SmartCard.OpenPgp.AlgorithmInformation

-- =========================================================== what belongs

/-- An entry of Curve25519 that a slot should not list. -/
def Misplaced (slot : Slot) (a : Attributes) : Prop :=
  a = .ec Attributes.eddsaId .x25519 .standard
    ∨ a = .ec Attributes.eddsaId .ed25519 .standard
      ∧ (slot = .dec ∨ slot = .att)

instance (slot : Slot) (a : Attributes) : Decidable (Misplaced slot a) :=
  inferInstanceAs (Decidable (_ ∨ _ ∧ (_ ∨ _)))

/-- The entries of a list that a slot may have, in order. -/
def proper (slot : Slot) (list : List Attributes) : List Attributes :=
  list.filter fun a => ¬ Misplaced slot a

/-- Of a slot's list, the attributes that belong there are kept. -/
theorem mem_proper {slot : Slot} {list : List Attributes} {a : Attributes} :
    a ∈ proper slot list ↔ a ∈ list ∧ ¬ Misplaced slot a := by
  unfold proper
  rw [List.mem_filter, decide_eq_true_eq]

/-- A list without misplaced entries stays as it is. -/
theorem proper_eq_self {slot : Slot} {list : List Attributes}
    (h : ∀ a ∈ list, ¬ Misplaced slot a) : proper slot list = list := by
  unfold proper
  exact List.filter_eq_self.mpr fun a ha => decide_eq_true (h a ha)

/-- Key agreement on Curve25519 is never misplaced. -/
theorem x25519_proper (slot : Slot) : ¬ Misplaced slot x25519 := by
  cases slot <;> decide

-- ========================================================= the three edits

/-- Both entries are struck out of a slot that has neither signatures. -/
theorem without_without {slot : Slot} (hslot : slot = .dec ∨ slot = .att)
    (list : List Attributes) :
    without ed25519 (without x25519Misnamed list) = proper slot list := by
  unfold without proper
  rw [List.filter_filter]
  refine List.filter_congr fun a _ => ?_
  unfold Misplaced
  simp only [hslot, and_true, not_or, ne_eq]
  rw [Bool.decide_and, Bool.and_comm]
  rfl

/-- One entry is struck out of a slot that signs. -/
theorem without_misnamed {slot : Slot} (hslot : ¬ (slot = .dec ∨ slot = .att))
    (list : List Attributes) :
    without x25519Misnamed list = proper slot list := by
  unfold without proper
  refine List.filter_congr fun a _ => ?_
  unfold Misplaced
  simp only [hslot, and_false, or_false, ne_eq]
  rfl

/-- Between the other two edits the missing entry is put at the end. It is
neither of the entries that are struck out, so the order of the edits does
not matter to it. -/
theorem without_ensure (list : List Attributes) :
    without ed25519 (ensure x25519 (without x25519Misnamed list))
      = proper .dec list ++ if x25519 ∈ list then [] else [x25519] := by
  have hmem : x25519 ∈ without x25519Misnamed list ↔ x25519 ∈ list := by
    unfold without
    rw [List.mem_filter]
    exact and_iff_left (by decide)
  unfold ensure
  by_cases hin : x25519 ∈ list
  · rw [if_pos (List.contains_iff_mem.mpr (hmem.mpr hin)), if_pos hin,
      List.append_nil]
    exact without_without (.inl rfl) list
  · have hout : ¬ (without x25519Misnamed list).contains x25519 = true := by
      rw [List.contains_iff_mem, hmem]
      exact hin
    rw [if_neg hout, if_neg hin]
    have happend : ∀ l : List Attributes,
        without ed25519 (l ++ [x25519]) = without ed25519 l ++ [x25519] :=
      fun l => List.filter_append _ _
    rw [happend, without_without (.inl rfl)]

-- =========================================================== the outcome

/-- What became of each slot of a list that was put right. -/
structure Corrected (before after : AlgorithmInformation) : Prop where
  /-- Each slot but that of decryption is listed if it was, with what it may
  have of what it had. -/
  others : ∀ slot, slot ≠ .dec → after slot = (before slot).map (proper slot)
  /-- The slot of decryption is listed in any case, with what it may have of
  what it had, and behind that the entry for key agreement if it had
  none. -/
  decryption : after .dec = some (proper .dec ((before .dec).getD [])
    ++ if x25519 ∈ (before .dec).getD [] then [] else [x25519])

/-- The correction does all that `Corrected` asks. -/
theorem corrected_correct (info : AlgorithmInformation) :
    Corrected info info.correctCurve25519 where
  others slot hslot := by
    cases slot with
    | sig =>
        show (info .sig).map _ = _
        exact congrArg (Option.map · _) (funext (without_misnamed (by decide)))
    | dec => exact absurd rfl hslot
    | aut =>
        show (info .aut).map _ = _
        exact congrArg (Option.map · _) (funext (without_misnamed (by decide)))
    | att =>
        show (info .att).map _ = _
        exact congrArg (Option.map · _) (funext (without_without (.inr rfl)))
  decryption := congrArg some (without_ensure _)

variable {before after : AlgorithmInformation}

/-- There is one outcome. -/
theorem Corrected.unique {other : AlgorithmInformation}
    (h : Corrected before after) (hother : Corrected before other) :
    other = after := by
  funext slot
  by_cases hslot : slot = .dec
  · rw [hslot, hother.decryption, h.decryption]
  · rw [hother.others slot hslot, h.others slot hslot]

/-- No slot of an outcome lists what it should not. -/
theorem Corrected.notMisplaced (h : Corrected before after) {slot : Slot}
    {list : List Attributes} (hlist : after slot = some list) :
    ∀ a ∈ list, ¬ Misplaced slot a := by
  intro a ha
  by_cases hslot : slot = .dec
  · subst hslot
    rw [h.decryption] at hlist
    injection hlist with hlist
    rw [← hlist] at ha
    rcases List.mem_append.mp ha with hold | hnew
    · exact (mem_proper.mp hold).2
    · split at hnew
      · cases hnew
      · rw [List.mem_singleton.mp hnew]
        exact x25519_proper .dec
  · rw [h.others slot hslot] at hlist
    obtain ⟨old, -, rfl⟩ := Option.map_eq_some_iff.mp hlist
    exact (mem_proper.mp ha).2

/-- The slot of decryption of an outcome lists key agreement. -/
theorem Corrected.agreement (h : Corrected before after) :
    ∃ list, after .dec = some list ∧ x25519 ∈ list := by
  refine ⟨_, h.decryption, ?_⟩
  by_cases hin : x25519 ∈ (before .dec).getD []
  · exact List.mem_append_left _ (mem_proper.mpr ⟨hin, x25519_proper .dec⟩)
  · rw [if_neg hin]
    exact List.mem_append_right _ (List.mem_singleton.mpr rfl)

/-- An outcome is what becomes of itself. -/
theorem Corrected.again (h : Corrected before after) :
    Corrected after after where
  others slot hslot := by
    cases hlist : after slot with
    | none => rfl
    | some list =>
        rw [Option.map_some, proper_eq_self (h.notMisplaced hlist)]
  decryption := by
    obtain ⟨list, hlist, hin⟩ := h.agreement
    rw [hlist, Option.getD_some, if_pos hin, List.append_nil,
      proper_eq_self (h.notMisplaced hlist)]

/-- The correction has the one outcome that a list of algorithms can have,
and a second correction changes nothing. In the outcome no slot lists
Curve25519 for key agreement under the algorithm of signatures; the slot of
decryption is listed, with Curve25519 for key agreement and without that for
signatures, which the slot of attestation does not list either; and no other
slot is listed that was not. -/
theorem correctCurve25519_exact (info : AlgorithmInformation) :
    (∀ after, Corrected info after ↔ after = info.correctCurve25519)
      ∧ (∀ slot list, info.correctCurve25519 slot = some list →
        .ec Attributes.eddsaId .x25519 .standard ∉ list)
      ∧ (∃ list, info.correctCurve25519 .dec = some list
        ∧ .ec Attributes.ecdhId .x25519 .standard ∈ list
        ∧ .ec Attributes.eddsaId .ed25519 .standard ∉ list)
      ∧ (∀ list, info.correctCurve25519 .att = some list →
        .ec Attributes.eddsaId .ed25519 .standard ∉ list)
      ∧ (∀ slot, slot ≠ .dec →
        ((info.correctCurve25519 slot).isSome ↔ (info slot).isSome))
      ∧ info.correctCurve25519.correctCurve25519
        = info.correctCurve25519 := by
  have h := corrected_correct info
  refine ⟨fun after => ⟨h.unique, ?_⟩, ?_, ?_, ?_, ?_, ?_⟩
  · rintro rfl
    exact h
  · intro slot list hlist hmem
    exact h.notMisplaced hlist _ hmem (.inl rfl)
  · obtain ⟨list, hlist, hin⟩ := h.agreement
    refine ⟨list, hlist, hin, fun hmem => ?_⟩
    exact h.notMisplaced hlist _ hmem (.inr ⟨rfl, .inl rfl⟩)
  · intro list hlist hmem
    exact h.notMisplaced hlist _ hmem (.inr ⟨rfl, .inr rfl⟩)
  · intro slot hslot
    rw [h.others slot hslot, Option.isSome_map]
  · exact h.again.unique (corrected_correct _)

end SmartCard.OpenPgp.AlgorithmInformation
