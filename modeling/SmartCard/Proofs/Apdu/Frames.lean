/-
Frames and what is read back from them. `Command.encode` refuses exactly
the commands that do not fit the form (`encode_fits`, `encode_misfit`), a
frame is as long as the parts that it holds, and a card that reads a frame
finds the command that was put into it.

# Telling the two forms apart

No form is written into a frame. A short frame with data has the length
of the data behind the header, which is never zero; an extended frame has
a zero there and more than that zero behind it. So whoever reads the frame
can tell the forms apart (`read_short`, `read_extended`), and
`Command.read?` is the reading that a card does.
-/
import SmartCard.Apdu.Command

namespace SmartCard.Command

-- ============================================================ what fits

/-- The answer length that is asked for can be written in the form. -/
def LeFits (form : LengthForm) (c : Command) : Prop :=
  ∀ n, c.le = some n → 0 < n ∧ n ≤ form.maxLe

/-- Both lengths of a command can be written in the form. -/
structure Fits (form : LengthForm) (c : Command) : Prop where
  data : c.data.length ≤ form.maxData
  le : c.LeFits form

/-- A command that fits is encoded as its header and its body. -/
theorem encode_fits {form : LengthForm} {c : Command} (h : c.Fits form) :
    c.encode form = .ok (c.header ++ c.body form) := by
  unfold encode
  rw [if_neg (Nat.not_lt.mpr h.data)]
  cases hle : c.le with
  | none => rfl
  | some n =>
      obtain ⟨hpos, hmax⟩ := h.le n hle
      have hok : (n = 0 || n > form.maxLe) = false := by
        simp only [Bool.or_eq_false_iff, decide_eq_false_iff_not]
        omega
      simp only [hok, Bool.false_eq_true, if_false]

/-- What is encoded fits. -/
theorem fits_of_encode {form : LengthForm} {c : Command} {frame : Bytes}
    (h : c.encode form = .ok frame) : c.Fits form := by
  unfold encode at h
  split at h
  · cases h
  · next hdata =>
      refine ⟨Nat.not_lt.mp hdata, fun n hle => ?_⟩
      rw [hle] at h
      by_cases hbad : n = 0 ∨ form.maxLe < n
      · simp only [Bool.or_eq_true, decide_eq_true_eq, gt_iff_lt, hbad,
          if_true] at h
        cases h
      · omega

/-- A command whose data fits is refused for its answer length, and the
error names that length. -/
theorem encode_misfit {form : LengthForm} {c : Command} {n : Nat}
    (hdata : c.data.length ≤ form.maxData) (hle : c.le = some n)
    (hbad : n = 0 ∨ form.maxLe < n) :
    c.encode form = .error (.commandLength n) := by
  unfold encode
  rw [if_neg (Nat.not_lt.mpr hdata), hle]
  simp only [Bool.or_eq_true, decide_eq_true_eq, gt_iff_lt, hbad, if_true]

/-- An Le does not fit where it is zero, or above what the form can say. -/
theorem not_leFits {form : LengthForm} {c : Command} :
    ¬ c.LeFits form ↔ ∃ n, c.le = some n ∧ (n = 0 ∨ form.maxLe < n) := by
  constructor
  · intro h
    cases hle : c.le with
    | none => exact absurd (fun n hn => by rw [hle] at hn; cases hn) h
    | some n =>
        refine ⟨n, rfl, ?_⟩
        by_cases hbad : n = 0 ∨ form.maxLe < n
        · exact hbad
        · refine absurd (fun m hm => ?_) h
          rw [hle] at hm
          injection hm with hm
          omega
  · rintro ⟨n, hle, hbad⟩ h
    have := h n hle
    omega

-- ============================================================== lengths

/-- How many octets a short frame spends on the answer length. -/
def leOctets (c : Command) : Nat :=
  if c.le.isSome then 1 else 0

/-- A short frame holds the header, the data with its length where there
is data, and the answer length where one is asked for. -/
theorem length_short (c : Command) :
    (c.header ++ c.body .short).length
      = 4 + (if c.data = [] then 0 else 1 + c.data.length)
        + c.leOctets := by
  unfold body header leOctets
  by_cases hdata : c.data = []
  · cases c.le <;> simp [hdata]
  · cases c.le <;> simp [hdata] <;> omega

/-- An extended frame with data holds the header, the length in three
octets, the data, and the answer length in two. -/
theorem length_extended {c : Command} (hdata : c.data ≠ []) :
    (c.header ++ c.body .extended).length
      = 7 + c.data.length + 2 * c.leOctets := by
  unfold body header leOctets
  cases c.le <;> simp [hdata] <;> omega

-- =========================================================== reading back

/-- An octet holds every length that a short frame may ask for. -/
theorem leOfOctet_ofNat {n : Nat} (hpos : 0 < n) (hmax : n ≤ 256) :
    leOfOctet (UInt8.ofNat n) = n := by
  unfold leOfOctet
  by_cases h : n = 256
  · subst h
    rfl
  · have hne : UInt8.ofNat n ≠ 0 := by
      intro hzero
      have := congrArg UInt8.toNat hzero
      simp at this
      omega
    rw [if_neg hne]
    simp
    omega

private theorem ne_zero_of_toNat {lc x : UInt8} {rest : Bytes}
    (hlc : lc.toNat = (x :: rest).length) : lc ≠ 0 := by
  rintro rfl
  simp at hlc

/-- Behind a length of one octet, so much is read as data; what follows
is the answer length, or nothing. -/
theorem parse_data (cla ins p1 p2 : UInt8) {lc x : UInt8}
    {rest : Bytes} (tail : Bytes) (hlc : lc.toNat = (x :: rest).length)
    (htail : tail.length ≤ 1) :
    parse (cla :: ins :: p1 :: p2 :: lc :: (x :: rest ++ tail))
      = .ok ⟨cla, ins, p1, p2, x :: rest, tail.head?.map leOfOctet⟩ := by
  have hne := ne_zero_of_toNat hlc
  have htake : (x :: rest ++ tail).take lc.toNat = x :: rest := by
    rw [hlc, List.take_left]
  have hdrop : (x :: rest ++ tail).drop lc.toNat = tail := by
    rw [hlc, List.drop_left]
  have hroom : ¬ (x :: rest ++ tail).length < lc.toNat := by
    rw [hlc, List.length_append]
    omega
  rw [List.cons_append] at htake hdrop hroom ⊢
  simp only [parse, htake, hdrop, hroom, hne, decide_false, Bool.or_self,
    Bool.false_eq_true, if_false]
  match tail with
  | [] => rfl
  | [_] => rfl
  | _ :: _ :: _ => simp at htail

/-- A short frame is read as the command that it was made of. -/
theorem parse_short {c : Command} (h : c.Fits .short) :
    parse (c.header ++ c.body .short) = .ok c := by
  obtain ⟨cla, ins, p1, p2, data, le⟩ := c
  have hlen : data.length ≤ 255 := h.data
  have hle : ∀ n, le = some n → leOfOctet (UInt8.ofNat n) = n :=
    fun n hn => leOfOctet_ofNat (h.le n hn).1 (h.le n hn).2
  cases data with
  | nil =>
      -- a single octet behind the header is the answer length
      cases le with
      | none => rfl
      | some n => simp [parse, header, body, hle n rfl]
  | cons x rest =>
      have hlc : (UInt8.ofNat (x :: rest).length).toNat
          = (x :: rest).length := by
        rw [UInt8.toNat_ofNat']
        omega
      cases le with
      | none =>
          have := parse_data cla ins p1 p2 [] hlc (by simp)
          simpa [header, body] using this
      | some n =>
          have := parse_data cla ins p1 p2 [UInt8.ofNat n] hlc (by simp)
          simpa [header, body, hle n rfl] using this

-- ======================================================= the longer form

/-- The answer length that two octets ask for. -/
def leOfOctets (n : Nat) : Nat :=
  if n = 0 then 65536 else n

/-- Read an extended frame. Behind the header stands a zero; then come the
length of the data in two octets, the data, and the answer length in two,
or the answer length alone. -/
def parseExtended? : Bytes → Option Command
  | cla :: ins :: p1 :: p2 :: 0 :: hi :: lo :: content =>
    let n := Bytes.toNat [hi, lo]
    if content = [] then some ⟨cla, ins, p1, p2, [], some (leOfOctets n)⟩
    else if n = 0 || content.length < n then none
    else match content.drop n with
      | [] => some ⟨cla, ins, p1, p2, content.take n, none⟩
      | [x, y] => some ⟨cla, ins, p1, p2, content.take n,
          some (leOfOctets (Bytes.toNat [x, y]))⟩
      | _ => none
  | _ => none

/-- Read a frame of either form. -/
def read? (frame : Bytes) : Option (LengthForm × Command) :=
  match parse frame with
  | .ok c => some (.short, c)
  | .error _ => (parseExtended? frame).map (.extended, ·)

/-- A short frame is read as one. -/
theorem read_short {c : Command} (h : c.Fits .short) :
    read? (c.header ++ c.body .short) = some (.short, c) := by
  unfold read?
  rw [parse_short h]

theorem toNat_two {n : Nat} (h : n < 65536) :
    Bytes.toNat (Bytes.bigEndian 2 n) = n := by
  rw [Bytes.toNat_bigEndian]
  exact Nat.mod_eq_of_lt h

/-- Le comes back from its two octets, the largest as two zeros. -/
theorem leOfOctets_bigEndian {n : Nat} (hpos : 0 < n) (hmax : n ≤ 65536) :
    leOfOctets (Bytes.toNat (Bytes.bigEndian 2 n)) = n := by
  unfold leOfOctets
  by_cases h : n = 65536
  · subst h
    rfl
  · rw [toNat_two (by omega), if_neg (by omega)]

/-- Behind a length of two octets, so much is read as data; what follows
is the answer length in two octets, or nothing. -/
theorem parseExtended_data (cla ins p1 p2 : UInt8) {hi lo x : UInt8}
    {rest tail : Bytes} {le : Option Nat}
    (hn : Bytes.toNat [hi, lo] = (x :: rest).length)
    (htail : (tail = [] ∧ le = none)
      ∨ ∃ a b, tail = [a, b] ∧ le = some (leOfOctets (Bytes.toNat [a, b]))) :
    parseExtended? (cla :: ins :: p1 :: p2 :: 0 :: hi :: lo
        :: (x :: rest ++ tail))
      = some ⟨cla, ins, p1, p2, x :: rest, le⟩ := by
  have htake : (x :: rest ++ tail).take (x :: rest).length = x :: rest :=
    List.take_left
  have hdrop : (x :: rest ++ tail).drop (x :: rest).length = tail :=
    List.drop_left
  have hroom : ¬ (x :: rest ++ tail).length < (x :: rest).length := by
    rw [List.length_append]
    omega
  have hne : ¬ (x :: rest).length = 0 := by simp
  have hsome : ¬ (x :: rest ++ tail) = [] := by simp
  unfold parseExtended?
  simp only [hn, htake, hdrop, hroom, hne, hsome, decide_false,
    Bool.or_self, Bool.false_eq_true, if_false]
  rcases htail with ⟨rfl, rfl⟩ | ⟨a, b, rfl, rfl⟩
  · rfl
  · rfl

/-- A frame with data is written with the length of the data in two
octets behind a zero. -/
theorem extended_cons (cla ins p1 p2 x : UInt8) (rest : Bytes)
    (le : Option Nat) :
    header ⟨cla, ins, p1, p2, x :: rest, le⟩
        ++ body .extended ⟨cla, ins, p1, p2, x :: rest, le⟩
      = cla :: ins :: p1 :: p2 :: 0
          :: UInt8.ofNat ((x :: rest).length / 256)
          :: UInt8.ofNat (x :: rest).length
          :: (x :: rest ++ (le.map (Bytes.bigEndian 2)).getD []) := by
  cases le with
  | none => simp [header, body, Bytes.bigEndian]
  | some n => simp [header, body, Bytes.bigEndian]

/-- The reader of extended frames finds a command with data again. -/
theorem parseExtended_encode {c : Command} (h : c.Fits .extended)
    (hdata : c.data ≠ []) :
    parseExtended? (c.header ++ c.body .extended) = some c := by
  obtain ⟨cla, ins, p1, p2, data, le⟩ := c
  cases data with
  | nil => exact absurd rfl hdata
  | cons x rest =>
      have hlen : (x :: rest).length ≤ 65535 := h.data
      have hn := toNat_two (n := (x :: rest).length) (by omega)
      rw [extended_cons]
      refine parseExtended_data cla ins p1 p2 hn ?_
      cases le with
      | none => exact Or.inl ⟨rfl, rfl⟩
      | some n =>
          obtain ⟨hpos, hmax⟩ := h.le n rfl
          refine Or.inr ⟨_, _, rfl, ?_⟩
          exact congrArg some (leOfOctets_bigEndian hpos hmax).symm

/-- The zero in front of an extended length is no length of a short
frame, so the frame is not read as one. -/
theorem parse_extended {c : Command} (hdata : c.data ≠ []) :
    ∃ e, parse (c.header ++ c.body .extended) = .error e := by
  obtain ⟨cla, ins, p1, p2, data, le⟩ := c
  cases data with
  | nil => exact absurd rfl hdata
  | cons x rest =>
      rw [extended_cons]
      exact ⟨_, rfl⟩

/-- An extended frame with data is read as the command that it was made
of, and not as a short one. -/
theorem read_extended {c : Command} (h : c.Fits .extended)
    (hdata : c.data ≠ []) :
    read? (c.header ++ c.body .extended) = some (.extended, c) := by
  obtain ⟨e, he⟩ := parse_extended hdata
  unfold read?
  rw [he, parseExtended_encode h hdata]
  rfl

end SmartCard.Command
