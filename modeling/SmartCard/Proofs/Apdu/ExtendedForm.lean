/-
Extended frames and the commands that fit into one are two views of the same
thing. A zero stands behind the header of every frame that has more than the
header, whether the length of the data or that of the answer is behind it, so
the zero does not tell which. What tells them apart is what comes next: with
nothing behind the two octets they ask for an answer, and otherwise they are
the length of the data, which is never zero (`parseExtended_split`).

The reader `readExtended?` goes by that. It finds the command in every frame
that is written (`readExtended_written`) and takes nothing else for a frame
(`written_of_readExtended`), so no two commands are written as one frame.
-/
import SmartCard.Proofs.Apdu.Frames
import SmartCard.Proofs.Numbers

namespace SmartCard.Command

/-- Read an extended frame, which may be a bare header. -/
def readExtended? : Bytes → Option Command
  | [cla, ins, p1, p2] => some ⟨cla, ins, p1, p2, [], none⟩
  | frame => parseExtended? frame

variable {c : Command} {frame : Bytes}

-- ================================================================ writing

/-- The reader finds the command again, with or without data. -/
theorem readExtended_written (h : c.Fits .extended) :
    readExtended? (c.header ++ c.body .extended) = some c := by
  obtain ⟨cla, ins, p1, p2, data, le⟩ := c
  cases data with
  | nil =>
      cases le with
      | none => rfl
      | some n =>
          obtain ⟨hpos, hmax⟩ := h.le n rfl
          show some (Command.mk cla ins p1 p2 []
            (some (leOfOctets (Bytes.toNat (Bytes.bigEndian 2 n))))) = _
          rw [leOfOctets_bigEndian hpos hmax]
  | cons x rest =>
      -- such a frame is longer than its header
      rw [← parseExtended_encode h (List.cons_ne_nil x rest), extended_cons]
      rfl

-- ================================================================ reading

theorem toNat_two_lt (hi lo : UInt8) : Bytes.toNat [hi, lo] < 65536 := by
  simpa using Bytes.toNat_lt [hi, lo]

theorem leOfOctets_bounds (hi lo : UInt8) :
    1 ≤ leOfOctets (Bytes.toNat [hi, lo])
      ∧ leOfOctets (Bytes.toNat [hi, lo]) ≤ 65536 := by
  have hlt := toNat_two_lt hi lo
  unfold leOfOctets
  split <;> omega

/-- Two octets that an answer length was read from are those it is written
as. -/
theorem bigEndian_leOfOctets (hi lo : UInt8) :
    Bytes.bigEndian 2 (leOfOctets (Bytes.toNat [hi, lo])) = [hi, lo] := by
  have hback : Bytes.bigEndian 2 (Bytes.toNat [hi, lo]) = [hi, lo] :=
    Bytes.bigEndian_toNat [hi, lo]
  unfold leOfOctets
  by_cases h : Bytes.toNat [hi, lo] = 0
  · rw [h] at hback
    rw [if_pos h, ← hback]
    rfl
  · rw [if_neg h]
    exact hback

/-- The two octets behind the zero ask for an answer if nothing follows
them, and are the length of the data if something does. -/
theorem parseExtended_split (h : parseExtended? frame = some c) :
    ∃ hi lo, (frame = c.header ++ [0, hi, lo] ∧ c.data = []
        ∧ c.le = some (leOfOctets (Bytes.toNat [hi, lo])))
      ∨ ∃ tail, frame = c.header ++ ([0, hi, lo] ++ (c.data ++ tail))
        ∧ c.data ≠ [] ∧ c.data.length = Bytes.toNat [hi, lo]
        ∧ ((tail = [] ∧ c.le = none)
          ∨ ∃ x y, tail = [x, y]
            ∧ c.le = some (leOfOctets (Bytes.toNat [x, y]))) := by
  unfold parseExtended? at h
  split at h
  · next cla ins p1 p2 hi lo content =>
      simp only [] at h
      refine ⟨hi, lo, ?_⟩
      split at h
      · next hnone =>
          cases h
          exact Or.inl ⟨by rw [hnone]; rfl, rfl, rfl⟩
      · split at h
        · cases h
        · next hroom =>
            simp only [Bool.or_eq_true, decide_eq_true_eq, not_or,
              Nat.not_lt] at hroom
            generalize Bytes.toNat [hi, lo] = n at h hroom ⊢
            have hlen : (content.take n).length = n := by
              rw [List.length_take]
              omega
            have hne : content.take n ≠ [] := by
              intro hnil
              rw [hnil, List.length_nil] at hlen
              exact hroom.1 hlen.symm
            have hsplit := List.take_append_drop n content
            split at h
            · next hdrop =>
                cases h
                rw [hdrop] at hsplit
                exact Or.inr ⟨[], by rw [hsplit]; rfl, hne, hlen,
                  Or.inl ⟨rfl, rfl⟩⟩
            · next x y hdrop =>
                cases h
                rw [hdrop] at hsplit
                exact Or.inr ⟨[x, y], by rw [hsplit]; rfl, hne, hlen,
                  Or.inr ⟨x, y, rfl, rfl⟩⟩
            · cases h
  · cases h

/-- What the reader takes for a frame is written for what it found. -/
theorem written_of_parseExtended (h : parseExtended? frame = some c) :
    c.Fits .extended ∧ frame = c.header ++ c.body .extended := by
  obtain ⟨hi, lo, ⟨hframe, hdata, hle⟩
    | ⟨tail, hframe, hdata, hlen, htail⟩⟩ := parseExtended_split h
  · refine ⟨⟨by simp [hdata], ?_⟩, ?_⟩
    · intro n hn
      cases hle.symm.trans hn
      exact leOfOctets_bounds _ _
    · rw [hframe]
      simp [body, hdata, hle, bigEndian_leOfOctets]
  · have hroom : c.data.length ≤ 65535 := by
      have hlt := toNat_two_lt hi lo
      omega
    have hlength : Bytes.bigEndian 2 c.data.length = [hi, lo] := by
      rw [hlen]
      exact Bytes.bigEndian_toNat [hi, lo]
    rcases htail with ⟨rfl, hle⟩ | ⟨x, y, rfl, hle⟩
    · refine ⟨⟨hroom, fun n hn => ?_⟩, ?_⟩
      · cases hle.symm.trans hn
      · rw [hframe]
        simp [body, hdata, hle, hlength]
    · refine ⟨⟨hroom, fun n hn => ?_⟩, ?_⟩
      · cases hle.symm.trans hn
        exact leOfOctets_bounds _ _
      · rw [hframe]
        simp [body, hdata, hle, hlength, bigEndian_leOfOctets]

/-- What the reader makes of a frame is encoded to that frame again. -/
theorem written_of_readExtended (h : readExtended? frame = some c) :
    c.encode .extended = .ok frame := by
  unfold readExtended? at h
  split at h
  · cases h
    rfl
  · obtain ⟨hfits, rfl⟩ := written_of_parseExtended h
    exact encode_fits hfits

-- ============================================================== both ways

/-- So the reader knows exactly the frames that are written, and each as the
command it was written for. -/
theorem readExtended_iff :
    readExtended? frame = some c ↔ c.encode .extended = .ok frame := by
  refine ⟨written_of_readExtended, fun h => ?_⟩
  have hfits := fits_of_encode h
  rw [encode_fits hfits] at h
  cases h
  exact readExtended_written hfits

/-- Extended frames can be told apart. The commands that are written are
those with up to 65535 octets of data that ask for nothing or for 1 to 65536
octets; no two of them are written as the same frame, and a reader that looks
at nothing but the frame finds the command again, and finds none in octets
that are no frame. -/
theorem extended_form_decodable (c : Command) (frame : Bytes) :
    (∀ other : Command, c.encode .extended = .ok frame →
        other.encode .extended = .ok frame → other = c)
      ∧ ((∃ written, c.encode .extended = .ok written)
        ↔ c.data.length ≤ 65535 ∧ ∀ n, c.le = some n → 1 ≤ n ∧ n ≤ 65536)
      ∧ (readExtended? frame = some c ↔ c.encode .extended = .ok frame) := by
  refine ⟨fun other hc hother => ?_, ⟨?_, ?_⟩, readExtended_iff⟩
  · have hread := readExtended_iff.mpr hc
    rw [readExtended_iff.mpr hother] at hread
    injection hread
  · rintro ⟨written, h⟩
    have hfits := fits_of_encode h
    exact ⟨hfits.data, hfits.le⟩
  · rintro ⟨hdata, hle⟩
    exact ⟨_, encode_fits ⟨hdata, hle⟩⟩

-- =========================================================== either form

/-- What a card reads in a frame of the form that was agreed on. -/
def readIn (form : LengthForm) (frame : Bytes) : Option Command :=
  match form with
  | .short => (parse frame).toOption
  | .extended => readExtended? frame

/-- In either form, a frame reads as the command that it was written for. -/
theorem readIn_written {form : LengthForm} (h : c.Fits form) :
    readIn form (c.header ++ c.body form) = some c := by
  cases form with
  | short => rw [readIn, parse_short h, Except.toOption]
  | extended => exact readExtended_written h

end SmartCard.Command
