/-
Which command a code is made of. The octets under a code tell the command:
its header, and its data up to the end. The length in between need not be
told right for that, and in a long chain it is not. All that matters is how
much room it takes, and the octet behind the header shows it: a zero stands
in front of a length in two octets, and a length in one octet is not zero,
as it counts the code. The reader `readCoded?` goes by that and finds the
command again (`readCoded_macInput`).

What is not under the code is the length of the answer, which two commands
with the same octets under their codes may have different.
-/
import SmartCard.Proofs.Scp03.Rounds

namespace SmartCard.Scp03

/-- A command but for the length of its answer. -/
def withoutLe (c : Command) : Command :=
  { c with le := none }

/-- Without the answer length, commands differ in their header or data
only. -/
theorem withoutLe_eq_iff {c d : Command} :
    withoutLe c = withoutLe d
      ↔ c.cla = d.cla ∧ c.ins = d.ins ∧ c.p1 = d.p1 ∧ c.p2 = d.p2
        ∧ c.data = d.data := by
  simp [withoutLe]

-- ========================================================= under the code

variable {form form' : LengthForm} {c d : Command}

/-- The length of data and code is written in one octet. -/
def CountedInOne (form : LengthForm) (c : Command) : Prop :=
  form = .short ∧ c.data.length + 8 ≤ 255

/-- A short count stands in one octet before the data. -/
theorem macInput_one (h : CountedInOne form c) :
    macInput form c
      = c.header ++ (UInt8.ofNat (c.data.length + 8) :: c.data) := by
  simp [macInput, h.1, h.2]

/-- Any other count stands in three, the first of them zero. -/
theorem macInput_three (h : ¬ CountedInOne form c) :
    macInput form c
      = c.header
        ++ (0x00 :: (Bytes.bigEndian 2 (c.data.length + 8) ++ c.data)) := by
  have hlong : (decide (form = .short)
      && decide (c.data.length + 8 ≤ 255)) = false := by
    simpa using not_and.mp h
  simp only [macInput, hlong, Bool.false_eq_true, if_false, List.append_assoc]
  rfl

theorem toNat_count (h : CountedInOne form c) :
    (UInt8.ofNat (c.data.length + 8)).toNat = c.data.length + 8 := by
  have hsmall := h.2
  rw [UInt8.toNat_ofNat']
  omega

/-- A length in one octet is not zero, for it counts the code. -/
theorem count_ne_zero (h : CountedInOne form c) :
    UInt8.ofNat (c.data.length + 8) ≠ 0 := by
  intro hzero
  have hvalue := toNat_count h
  rw [hzero, UInt8.toNat_zero] at hvalue
  omega

/-- The octet behind the header shows in how many octets the length is
written. -/
theorem countedInOne_iff :
    CountedInOne form c ↔ (macInput form c)[4]? ≠ some 0 := by
  by_cases h : CountedInOne form c
  · rw [macInput_one h]
    have hne := count_ne_zero h
    simpa [h, Command.header] using hne
  · rw [macInput_three h]
    simp [h, Command.header]

/-- The command that octets under a code belong to, without the length of
its answer. -/
def readCoded? : Bytes → Option Command
  | cla :: ins :: p1 :: p2 :: mark :: rest =>
    some ⟨cla, ins, p1, p2, if mark = 0 then rest.drop 2 else rest, none⟩
  | _ => none

/-- What is coded is read back, but for the answer length. -/
theorem readCoded_macInput (form : LengthForm) (c : Command) :
    readCoded? (macInput form c) = some (withoutLe c) := by
  by_cases h : CountedInOne form c
  · rw [macInput_one h]
    show some (Command.mk _ _ _ _
      (if UInt8.ofNat (c.data.length + 8) = 0 then _ else c.data) none) = _
    rw [if_neg (count_ne_zero h)]
    rfl
  · rw [macInput_three h]
    rfl

/-- The length of the answer is not under the code, and of the form only how
the length is written. -/
theorem macInput_congr (hsame : withoutLe c = withoutLe d)
    (hcounted : CountedInOne form c ↔ CountedInOne form' d) :
    macInput form c = macInput form' d := by
  obtain ⟨hcla, hins, hp1, hp2, hdata⟩ := withoutLe_eq_iff.mp hsame
  by_cases h : CountedInOne form c
  · rw [macInput_one h, macInput_one (hcounted.mp h)]
    simp only [Command.header, hcla, hins, hp1, hp2, hdata]
  · rw [macInput_three h, macInput_three (mt hcounted.mpr h)]
    simp only [Command.header, hcla, hins, hp1, hp2, hdata]

/-- Coded the same are commands that differ in the answer length at most,
and in the form only where the count takes three octets. -/
theorem macInput_eq_iff :
    macInput form c = macInput form' d
      ↔ withoutLe c = withoutLe d
        ∧ (form = form' ∨ 255 < c.data.length + 8) := by
  constructor
  · intro h
    have hsame : withoutLe c = withoutLe d := by
      have hread := readCoded_macInput form c
      rw [h, readCoded_macInput] at hread
      exact (Option.some.inj hread).symm
    refine ⟨hsame, ?_⟩
    obtain ⟨-, -, -, -, hdata⟩ := withoutLe_eq_iff.mp hsame
    have hcounted : CountedInOne form c ↔ CountedInOne form' d := by
      rw [countedInOne_iff, countedInOne_iff, h]
    unfold CountedInOne at hcounted
    rw [← hdata] at hcounted
    by_cases hshort : c.data.length + 8 ≤ 255
    · left
      cases form <;> cases form' <;> simp_all
    · right
      omega
  · rintro ⟨hsame, hforms⟩
    obtain ⟨-, -, -, -, hdata⟩ := withoutLe_eq_iff.mp hsame
    refine macInput_congr hsame ?_
    unfold CountedInOne
    rw [← hdata]
    obtain rfl | hlong := hforms
    · rfl
    · constructor
      · intro h
        omega
      · intro h
        omega

-- ======================================================= secured commands

variable {keys keys' : SessionKeys} {encrypted encrypted' : Bool}
  {chain chain' next next' : Chain} {sent sent' : Command}

/-- A secured command without the code at the end of its data. -/
def uncoded (sent : Command) : Command :=
  { sent with data := sent.data.take (sent.data.length - 8) }

/-- Taking the code off a protected command leaves what was coded. -/
theorem uncoded_wrapped (keys : SessionKeys) (form : LengthForm)
    (encrypted : Bool) (chain : Chain) (c : Command) :
    uncoded (wrapped keys form encrypted chain c)
      = coded keys encrypted chain c := by
  unfold uncoded wrapped
  simp only [split_code]
  rfl

/-- What goes over the channel has its code behind the data; the code is that
of the octets of `macInput` behind the value of the channel, and the channel
goes on from it. -/
structure Authenticated (keys : SessionKeys) (form : LengthForm) (chain : Chain)
    (sent : Command) (next : Chain) : Prop where
  value : next.chaining
    = Scp03.mac keys.smac
      (chain.chaining.toList ++ macInput form (uncoded sent))
  data : sent.data = (uncoded sent).data ++ next.chaining.toList.take 8

/-- Whatever is protected is authenticated under the values of the
channel. -/
theorem authenticated_of_protect
    (h : protect keys form encrypted c chain = .ok (sent, next)) :
    Authenticated keys form chain sent next := by
  have hcount : encrypted = true → chain.counter ≠ 0xFFFFFFFF := by
    rintro rfl hlast
    rw [protect_exhausted keys form c hlast] at h
    cases h
  rw [protect_eq keys form encrypted c chain hcount] at h
  obtain ⟨rfl, rfl⟩ := Prod.mk.inj (Except.ok.inj h)
  refine ⟨?_, ?_⟩
  · rw [uncoded_wrapped]
    rfl
  · rw [uncoded_wrapped]
    rfl

/-- Secured commands that agree under the code agree in the code as well, if
the key of the codes and the value of the channel are the same. -/
theorem Authenticated.sent_eq (h : Authenticated keys form chain sent next)
    (h' : Authenticated keys' form' chain' sent' next')
    (hinput : macInput form (uncoded sent) = macInput form' (uncoded sent'))
    (hkey : keys.smac = keys'.smac)
    (hvalue : chain.chaining = chain'.chaining) :
    withoutLe sent = withoutLe sent' := by
  have hnext : next.chaining = next'.chaining := by
    rw [h.value, h'.value, hinput, hkey, hvalue]
  have hsame := (macInput_eq_iff.mp hinput).1
  obtain ⟨hcla, hins, hp1, hp2, hdata⟩ := withoutLe_eq_iff.mp hsame
  refine withoutLe_eq_iff.mpr ⟨hcla, hins, hp1, hp2, ?_⟩
  rw [h.data, h'.data, hdata, hnext]

/-- The octets under a code tell the command: those of two commands are the
same exactly if class, instruction, parameters and data are, and the length
is written the same way. So no two secured commands have a code of the same
octets unless they are the same up to the code and the length of the answer;
under one key and value the codes are the same too. -/
theorem coded_commands_told_apart (form form' : LengthForm) (c d : Command) :
    (macInput form c = macInput form' d
        ↔ (c.cla = d.cla ∧ c.ins = d.ins ∧ c.p1 = d.p1 ∧ c.p2 = d.p2
            ∧ c.data = d.data)
          ∧ (form = form' ∨ 255 < c.data.length + 8))
      ∧ ∀ {keys keys' encrypted encrypted' chain chain' sent sent' next next'},
        protect keys form encrypted c chain = .ok (sent, next) →
        protect keys' form' encrypted' d chain' = .ok (sent', next') →
        Authenticated keys form chain sent next
          ∧ Authenticated keys' form' chain' sent' next'
          ∧ (macInput form (uncoded sent) = macInput form' (uncoded sent') →
            withoutLe (uncoded sent) = withoutLe (uncoded sent')
              ∧ (keys.smac = keys'.smac → chain.chaining = chain'.chaining →
                withoutLe sent = withoutLe sent')) := by
  refine ⟨?_, ?_⟩
  · rw [macInput_eq_iff, withoutLe_eq_iff]
  · intro keys keys' encrypted encrypted' chain chain' sent sent' next next'
      hsent hsent'
    have h := authenticated_of_protect hsent
    have h' := authenticated_of_protect hsent'
    refine ⟨h, h', fun hinput => ⟨(macInput_eq_iff.mp hinput).1, ?_⟩⟩
    exact h.sent_eq h' hinput

/-- A command whose length has two octets under the code in either form. -/
def longCommand (le : Option Nat) : Command where
  cla := 0x00
  ins := 0xDA
  p1 := 0x00
  p2 := 0x65
  data := List.replicate 300 0x3C
  le := le

/-- The same long command in short and in extended form has the same octets
under the code, also where only one of the two asks for an answer. -/
theorem coded_commands_of_both_forms :
    ∃ sent sent' next next',
      protect SessionKeys.wiped .short false (longCommand (some 256)) {}
          = .ok (sent, next)
        ∧ protect SessionKeys.wiped .extended false (longCommand none) {}
          = .ok (sent', next')
        ∧ macInput .short (uncoded sent) = macInput .extended (uncoded sent')
        ∧ withoutLe sent = withoutLe sent'
        ∧ sent ≠ sent' := by
  have hsent := protect_eq SessionKeys.wiped .short false
    (longCommand (some 256)) {} nofun
  have hsent' := protect_eq SessionKeys.wiped .extended false
    (longCommand none) {} nofun
  have hinput : macInput .short (uncoded (wrapped SessionKeys.wiped .short
        false {} (longCommand (some 256))))
      = macInput .extended (uncoded (wrapped SessionKeys.wiped .extended
        false {} (longCommand none))) := by
    rw [uncoded_wrapped, uncoded_wrapped]
    refine macInput_eq_iff.mpr ⟨rfl, Or.inr ?_⟩
    show 255 < (List.replicate 300 (0x3C : UInt8)).length + 8
    rw [List.length_replicate]
    decide
  obtain ⟨-, hsecured⟩ := coded_commands_told_apart .short .extended
    (longCommand (some 256)) (longCommand none)
  obtain ⟨-, -, hsame⟩ := hsecured hsent hsent'
  refine ⟨_, _, _, _, hsent, hsent', hinput, (hsame hinput).2 rfl rfl, ?_⟩
  intro heq
  cases congrArg Command.le heq

end SmartCard.Scp03
