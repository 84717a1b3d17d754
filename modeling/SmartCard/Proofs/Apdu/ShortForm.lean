/-
Short frames and the commands that fit into one are two views of the same
thing. The rule that joins them is `Written`: four shapes of a frame, by
whether there is data and whether an answer is asked for. What the encoder
writes has the shape of its command (`encode_iff_written`), and the reader
takes a frame for a command exactly where it has that shape
(`parse_iff_written`), so each undoes the other.

# One octet behind the header

A frame of five octets asks for an answer; there is no room for data. With
two octets or more behind the header the first is the length of the data.
It is never zero, since data that is absent has no length in front of it,
so no octet has two readings.
-/
import SmartCard.Proofs.Apdu.Frames

namespace SmartCard.Command

-- =========================================================== four shapes

/-- The shapes of a short frame: the header, then the data behind its
length where there is data, then the length of the answer where one is
asked for. An octet holds the lengths up to 255, and 256 as zero. -/
inductive Written (c : Command) : Bytes → Prop
  | bare : c.data = [] → c.le = none →
      Written c [c.cla, c.ins, c.p1, c.p2]
  | asking (n : Nat) : c.data = [] → c.le = some n → 1 ≤ n → n ≤ 256 →
      Written c [c.cla, c.ins, c.p1, c.p2, UInt8.ofNat n]
  | telling : 1 ≤ c.data.length → c.data.length ≤ 255 → c.le = none →
      Written c ([c.cla, c.ins, c.p1, c.p2, UInt8.ofNat c.data.length]
        ++ c.data)
  | both (n : Nat) : 1 ≤ c.data.length → c.data.length ≤ 255 →
      c.le = some n → 1 ≤ n → n ≤ 256 →
      Written c ([c.cla, c.ins, c.p1, c.p2, UInt8.ofNat c.data.length]
        ++ c.data ++ [UInt8.ofNat n])

variable {c : Command} {frame : Bytes}

/-- A command that is written in short form fits it. -/
theorem Written.fits (h : c.Written frame) : c.Fits .short := by
  have hnone : c.le = none → c.LeFits .short := by
    intro hle n hn
    rw [hle] at hn
    cases hn
  have hsome : ∀ n, c.le = some n → 1 ≤ n → n ≤ 256 → c.LeFits .short := by
    intro n hle hpos hmax m hm
    rw [hle] at hm
    cases hm
    exact ⟨hpos, hmax⟩
  cases h with
  | bare hdata hle => exact ⟨by simp [hdata], hnone hle⟩
  | asking n hdata hle hpos hmax =>
      exact ⟨by simp [hdata], hsome n hle hpos hmax⟩
  | telling _ hlen hle => exact ⟨hlen, hnone hle⟩
  | both n _ hlen hle hpos hmax => exact ⟨hlen, hsome n hle hpos hmax⟩

/-- A command has one shape, that of the frame it is put into. -/
theorem Written.frame_eq (h : c.Written frame) :
    frame = c.header ++ c.body .short := by
  cases h with
  | bare hdata hle => simp [header, body, hdata, hle]
  | asking n hdata hle _ _ => simp [header, body, hdata, hle]
  | telling hpos _ hle =>
      have hdata : c.data ≠ [] := List.length_pos_iff.mp hpos
      simp [header, body, hdata, hle]
  | both n hpos _ hle _ _ =>
      have hdata : c.data ≠ [] := List.length_pos_iff.mp hpos
      simp [header, body, hdata, hle]

/-- One that fits is written, as its header and its body. -/
theorem written_of_fits (h : c.Fits .short) :
    c.Written (c.header ++ c.body .short) := by
  have hlen : c.data.length ≤ 255 := h.data
  by_cases hdata : c.data = []
  · cases hle : c.le with
    | none => simpa [header, body, hdata, hle] using Written.bare hdata hle
    | some n =>
        have hshape := Written.asking n hdata hle (h.le n hle).1 (h.le n hle).2
        simpa [header, body, hdata, hle] using hshape
  · have hpos : 1 ≤ c.data.length := List.length_pos_iff.mpr hdata
    cases hle : c.le with
    | none =>
        simpa [header, body, hdata, hle] using Written.telling hpos hlen hle
    | some n =>
        have hshape := Written.both n hpos hlen hle (h.le n hle).1
          (h.le n hle).2
        simpa [header, body, hdata, hle] using hshape

/-- The encoder produces exactly the written frames. -/
theorem encode_iff_written : c.encode .short = .ok frame ↔ c.Written frame := by
  constructor
  · intro h
    have hfits := fits_of_encode h
    rw [encode_fits hfits] at h
    injection h with h
    rw [← h]
    exact written_of_fits hfits
  · intro h
    rw [h.frame_eq]
    exact encode_fits h.fits

-- ================================================================ reading

theorem leOfOctet_bounds (x : UInt8) :
    1 ≤ leOfOctet x ∧ leOfOctet x ≤ 256 := by
  unfold leOfOctet
  by_cases h : x = 0
  · simp [h]
  · rw [if_neg h]
    have hpos : x.toNat ≠ 0 := fun hzero => h (UInt8.toNat_inj.mp hzero)
    have hlt := x.toNat_lt
    omega

/-- The octet that a length was read from is the one it is written as. -/
theorem ofNat_leOfOctet (x : UInt8) : UInt8.ofNat (leOfOctet x) = x := by
  unfold leOfOctet
  by_cases h : x = 0
  · rw [if_pos h, h]
    rfl
  · rw [if_neg h, UInt8.ofNat_toNat]

/-- Two octets or more behind the header are read where the first is the
length of what follows, give or take one octet at the end. -/
theorem parse_behind_length {cla ins p1 p2 lc x : UInt8} {content : Bytes}
    (h : parse (cla :: ins :: p1 :: p2 :: lc :: x :: content) = .ok c) :
    lc ≠ 0 ∧ c.data.length = lc.toNat
      ∧ ∃ tail, x :: content = c.data ++ tail ∧ tail.length ≤ 1
        ∧ c = ⟨cla, ins, p1, p2, c.data, tail.head?.map leOfOctet⟩ := by
  unfold parse at h
  simp only [] at h
  split at h
  · cases h
  · next hroom =>
      simp only [Bool.or_eq_true, decide_eq_true_eq, not_or,
        Nat.not_lt] at hroom
      have hsplit := List.take_append_drop lc.toNat (x :: content)
      have htake : ((x :: content).take lc.toNat).length = lc.toNat := by
        rw [List.length_take]
        omega
      split at h
      · next hdrop =>
          cases h
          rw [hdrop] at hsplit
          exact ⟨hroom.1, htake, [], hsplit.symm, by simp, rfl⟩
      · next le hdrop =>
          cases h
          rw [hdrop] at hsplit
          exact ⟨hroom.1, htake, [le], hsplit.symm, by simp, rfl⟩
      · cases h

/-- What the reader accepts has the shape of what it found. -/
theorem written_of_parse (h : parse frame = .ok c) : c.Written frame := by
  match frame with
  | [] | [_] | [_, _] | [_, _, _] => cases h
  | [cla, ins, p1, p2] =>
      cases h
      exact .bare rfl rfl
  | [cla, ins, p1, p2, le] =>
      cases h
      have hbounds := leOfOctet_bounds le
      have hshape := Written.asking
        (c := ⟨cla, ins, p1, p2, [], some (leOfOctet le)⟩) (leOfOctet le)
        rfl rfl hbounds.1 hbounds.2
      rwa [ofNat_leOfOctet] at hshape
  | cla :: ins :: p1 :: p2 :: lc :: x :: content =>
      obtain ⟨hne, hlen, tail, hcontent, htail, hc⟩ := parse_behind_length h
      have hpos : 1 ≤ c.data.length := by
        have hzero : lc.toNat ≠ 0 := fun hz => hne (UInt8.toNat_inj.mp hz)
        omega
      have hmax : c.data.length ≤ 255 := by
        have := lc.toNat_lt
        omega
      have hlc : UInt8.ofNat c.data.length = lc := by
        rw [hlen, UInt8.ofNat_toNat]
      generalize c.data = data at hc hcontent hpos hmax hlc
      subst hc
      match tail with
      | [] =>
          have hshape := Written.telling (c := ⟨cla, ins, p1, p2, data, none⟩)
            hpos hmax rfl
          rw [hcontent]
          simpa [hlc] using hshape
      | [le] =>
          have hbounds := leOfOctet_bounds le
          have hshape := Written.both
            (c := ⟨cla, ins, p1, p2, data, some (leOfOctet le)⟩)
            (leOfOctet le) hpos hmax rfl hbounds.1 hbounds.2
          rw [hcontent]
          simpa [hlc, ofNat_leOfOctet] using hshape
      | _ :: _ :: _ => simp at htail

/-- The parser accepts exactly the written frames. -/
theorem parse_iff_written : parse frame = .ok c ↔ c.Written frame := by
  constructor
  · exact written_of_parse
  · intro h
    rw [h.frame_eq]
    exact parse_short h.fits

-- ============================================================== both ways

/-- Short frames and commands correspond one to one. A frame is read as a
command exactly where the command is written as that frame, and either way
the frame is the command in its shape, from the first octet to the last.
The commands that are written are those with up to 255 octets of data that
ask for nothing or for 1 to 256 octets, and no two of them are written as
the same frame. -/
theorem short_form_one_to_one (frame : Bytes) (c : Command) :
    (parse frame = .ok c ↔ c.encode .short = .ok frame)
      ∧ (c.encode .short = .ok frame ↔ c.Written frame)
      ∧ ((∃ written, c.encode .short = .ok written)
        ↔ c.data.length ≤ 255 ∧ ∀ n, c.le = some n → 1 ≤ n ∧ n ≤ 256)
      ∧ ∀ other : Command, c.encode .short = .ok frame →
        other.encode .short = .ok frame → other = c := by
  have hboth : ∀ d : Command,
      parse frame = .ok d ↔ d.encode .short = .ok frame :=
    fun d => parse_iff_written.trans encode_iff_written.symm
  refine ⟨hboth c, encode_iff_written, ?_, ?_⟩
  · constructor
    · rintro ⟨written, h⟩
      have hfits := fits_of_encode h
      exact ⟨hfits.data, hfits.le⟩
    · rintro ⟨hdata, hle⟩
      exact ⟨_, encode_fits ⟨hdata, hle⟩⟩
  · intro other hc hother
    have hread := (hboth c).mpr hc
    rw [(hboth other).mpr hother] at hread
    injection hread

end SmartCard.Command
