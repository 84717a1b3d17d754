/-
What the code of a command covers, held against what is on the link. The
octets under a code are put together in one place and the frames in
another; they are the same octets in another order of work, and where they
are not the same is said here.

# One frame

Where a command goes out in one frame, the octets under its code are that
frame up to the code: header, length and data, with the length of the code
already counted. Behind them stand the code and, if an answer is asked for,
its length (`frame_eq`).

# A chain

Each frame of a chain has a header and a length of its own. Under the code
is the header of the whole command instead, with the length of all the data
together. That length has two octets where one does not do, and a chain has
no such bound: it may carry more than 65535 octets, and then what is under
the code is the length modulo 65536 (`codedLength_macInput`).
-/
import Mathlib.Algebra.Ring.Nat
import SmartCard.Proofs.Apdu.Whole
import SmartCard.Proofs.Scp03.CodedCommands
import SmartCard.Proofs.Scp03.Vectors

namespace SmartCard.Scp03

open Framing (frameTotal framesOf followUpFrame WentOut)

variable {σ : Type} [Transport σ]

-- ======================================================= over the channel

/-- A command went over the channel whole in these frames: they are as many
as the protected command has, and behind them nothing was handed over but
requests for the rest of the answer. -/
structure Sent (channel : SecureChannel) (encrypted : Bool) (c : Command)
    (link : Link σ) (chain : Chain) (frames : List Bytes) : Prop where
  /-- The values that the channel had. -/
  present : channel.chain = some chain
  count : frames.length
    = frameTotal channel.framing (channel.framing.limitOver link)
      (wrapped channel.keys channel.framing.form encrypted chain c)
  handed : ∃ counts : List Nat, (channel.send encrypted c link).2.frames
    = link.frames
      ++ (frames ++ counts.map (followUpFrame channel.framing.getResponse))

section Sent

variable {channel : SecureChannel} {encrypted : Bool} {c : Command}
  {link : Link σ} {chain : Chain} {frames : List Bytes}

/-- A command that went out had a counter to be encrypted under. -/
theorem Sent.counted (h : Sent channel encrypted c link chain frames) :
    encrypted = true → chain.counter ≠ 0xFFFFFFFF := by
  rintro rfl hlast
  obtain ⟨counts, hhanded⟩ := h.handed
  rw [send_exhausted h.present hlast] at hhanded
  have hlen := congrArg List.length hhanded
  have hpos := Framing.frameTotal_pos channel.framing
    (channel.framing.limitOver link)
    (wrapped channel.keys channel.framing.form true chain c)
  simp only [List.length_append, h.count] at hlen
  omega

theorem Sent.wentOut (h : Sent channel encrypted c link chain frames) :
    WentOut channel.framing (wrapped channel.keys channel.framing.form
      encrypted chain c) link frames := by
  refine ⟨h.count, ?_⟩
  unfold Framing.Handed
  rw [← send_link h.present h.counted]
  exact h.handed

/-- What goes out of the wrapped command is what is sent, on a live channel
with a count left. -/
theorem sent_of_wentOut (hchain : channel.chain = some chain)
    (hcount : encrypted = true → chain.counter ≠ 0xFFFFFFFF)
    (h : WentOut channel.framing (wrapped channel.keys channel.framing.form
      encrypted chain c) link frames) :
    Sent channel encrypted c link chain frames := by
  refine ⟨hchain, h.count, ?_⟩
  rw [send_link hchain hcount]
  exact h.handed

end Sent

-- ======================================================== a willing card

/-- A card that answers 90 00 to everything. -/
def willingLink (lifetime : Nat) : Link ScriptedCard :=
  linkWith [[0x90, 0x00]] [] lifetime

theorem willing_next : Script.next? [[0x90, 0x00]]
    = some ((⟨[], .success⟩ : Response).bytes, [[0x90, 0x00]]) := by
  rfl

/-- While its link lasts, the willing card accepts any frames. By induction
over the frames, the latest in the journal being the first of the list. -/
theorem accepted_willing (frames sent : List Bytes) (lifetime : Nat) :
    Accepted frames
      (linkWith [[0x90, 0x00]] sent (lifetime + frames.length))
      (linkWith [[0x90, 0x00]] (frames.reverse ++ sent) lifetime) := by
  induction frames generalizing sent with
  | nil => exact .nil _
  | cons frame rest ih =>
      rw [List.length_cons, List.reverse_cons, List.append_assoc]
      exact .cons (exchange_next willing_next frame sent _) rfl
        (ih (frame :: sent))

/-- A card that answers 90 00 to everything gets every command in short form
whole, if the link lasts. -/
theorem sent_willing (encrypted : Bool) {c : Command}
    (hle : c.LeFits .short) :
    ∃ lifetime, Sent (channelAt {}) encrypted c (willingLink lifetime) {}
      (framesOf {} 1390 (wrapped SessionKeys.wiped .short encrypted {} c)) := by
  let w := wrapped SessionKeys.wiped .short encrypted {} c
  let before := Framing.leadingFrames (Framing.chunkSize 1390) w
  have hacc := accepted_willing before [] 1
  have hlast := exchange_next willing_next
    (Framing.lastFrame (Framing.chunkSize 1390) w) (before.reverse ++ []) 0
  have hbegun : Framing.Begun {} w (willingLink (1 + before.length))
      ⟨[], .success⟩ _ := .short rfl hle hacc hlast
  exact ⟨_, sent_of_wentOut rfl (fun _ => by decide) hbegun.wentOut⟩

-- ============================================================== one frame

/-- How the length of data stands in front of it, in one frame. -/
def dataField (form : LengthForm) (length : Nat) : Bytes :=
  match form with
  | .short => [UInt8.ofNat length]
  | .extended => 0x00 :: Bytes.bigEndian 2 length

/-- How the length of the answer stands behind data, if one is asked
for. -/
def answerField (form : LengthForm) (c : Command) : Bytes :=
  match c.le, form with
  | none, _ => []
  | some n, .short => [UInt8.ofNat n]
  | some n, .extended => Bytes.bigEndian 2 n

theorem body_data {form : LengthForm} {c : Command} (hne : c.data ≠ []) :
    c.body form
      = dataField form c.data.length ++ (c.data ++ answerField form c) := by
  unfold Command.body dataField answerField
  cases form with
  | short => cases c.le <;> simp [hne]
  | extended => cases c.le <;> simp [hne]

/-- What is coded of a command of one frame is the start of that frame. -/
theorem macInput_oneFrame {form : LengthForm} {c : Command}
    (hfits : form = .short → c.data.length + 8 ≤ 255) :
    macInput form c
      = c.header ++ (dataField form (c.data.length + 8) ++ c.data) := by
  unfold macInput dataField
  cases form with
  | short => simp [hfits rfl]
  | extended => simp

/-- The frame of a command that ends in a code has the octets under that
code in front: its length is that of the data with the code. -/
theorem frame_eq {form : LengthForm} {c : Command} {data code : Bytes}
    (hcode : code.length = 8) (hdata : c.data = data ++ code)
    (hfits : form = .short → c.data.length ≤ 255) :
    c.header ++ c.body form
      = macInput form { c with data }
        ++ (code ++ answerField form c) := by
  have hlen : c.data.length = data.length + 8 := by
    rw [hdata, List.length_append, hcode]
  have hne : c.data ≠ [] := by
    intro hnil
    rw [hnil, List.length_nil] at hlen
    omega
  have hunder : macInput form { c with data }
      = c.header ++ (dataField form (data.length + 8) ++ data) :=
    macInput_oneFrame fun hform => hlen ▸ hfits hform
  rw [body_data hne, hunder, hlen, hdata]
  simp only [List.append_assoc]

theorem length_half (code : Block) : (code.toList.take 8).length = 8 :=
  length_code [] code

/-- Where a command goes over a channel in one frame, the octets under its
code are that frame without the eight octets of the code and without the
length of the answer behind them; and these eight octets are the code of
the frame before them, under the value that the channel had. It is the code
that the channel goes on from. -/
theorem code_covers_frame {channel : SecureChannel} {encrypted : Bool}
    {c : Command} {link : Link σ} {chain : Chain} {frame : Bytes}
    (h : Sent channel encrypted c link chain [frame]) :
    let form := channel.framing.form
    let tail := answerField form c
    let covered := frame.take (frame.length - (8 + tail.length))
    let value := Scp03.mac channel.keys.smac
      (chain.chaining.toList ++ covered)
    covered = macInput form (coded channel.keys encrypted chain c)
      ∧ frame = covered ++ value.toList.take 8 ++ tail
      ∧ ∃ sent next, protect channel.keys form encrypted c chain
          = .ok (sent, next)
        ∧ next.chaining = value := by
  intro form tail covered value
  obtain ⟨hsingle, -⟩ := h.wentOut.frames_eq
  obtain ⟨hframe, hfits⟩ := Framing.framesOf_eq_singleton hsingle.symm
  have hsplit : frame
      = macInput form (coded channel.keys encrypted chain c)
        ++ ((nextChaining channel.keys form encrypted chain c).toList.take 8
          ++ tail) :=
    hframe.trans (frame_eq (length_half _) rfl hfits)
  have hcovered : covered
      = macInput form (coded channel.keys encrypted chain c) := by
    have hlen := congrArg List.length hsplit
    simp only [List.length_append, length_half] at hlen
    show frame.take _ = _
    rw [show frame.length - (8 + tail.length)
      = (macInput form (coded channel.keys encrypted chain c)).length by
        omega, hsplit, List.take_left]
  have hvalue : value = nextChaining channel.keys form encrypted chain c := by
    show Scp03.mac _ (_ ++ covered) = _
    rw [hcovered]
    rfl
  refine ⟨hcovered, ?_, _, _, protect_eq _ _ _ _ _ h.counted, hvalue.symm⟩
  rw [hvalue, hcovered, List.append_assoc]
  exact hsplit

/-- A command that takes one frame and asks for an answer. -/
def askingCommand : Command :=
  { shortCommand with le := some 256 }

/-- An encrypted command with an answer asked for: behind what is covered
stand the code and the zero that asks for 256 octets. -/
theorem code_covers_asking :
    ∃ lifetime frame covered,
      Sent (channelAt {}) true askingCommand (willingLink lifetime) {} [frame]
        ∧ covered = macInput .short
          (coded SessionKeys.wiped true {} askingCommand)
        ∧ frame = covered ++ (Scp03.mac (Octets.zero 16)
          ((Octets.zero 16).toList ++ covered)).toList.take 8 ++ [0x00] := by
  have hle : askingCommand.LeFits .short := by
    rintro n ⟨⟩
    decide
  obtain ⟨lifetime, hsent⟩ := sent_willing true hle
  have hlen := length_wrapped SessionKeys.wiped .short {} askingCommand
  rw [Framing.framesOf_single rfl (by rw [hlen]; decide)] at hsent
  obtain ⟨hcovered, hframe, -⟩ := code_covers_frame hsent
  exact ⟨lifetime, _, _, hsent, hcovered, hframe⟩

-- ================================================================ a chain

/-- The length that the octets under a code tell behind the header: in one
octet that is not zero, or in the two behind a zero. -/
def codedLength (input : Bytes) : Nat :=
  match input.drop 4 with
  | [] => 0
  | lc :: rest => if lc = 0 then Bytes.toNat (rest.take 2) else lc.toNat

/-- How much data a command has on the channel, with the code. Encryption
pads it to whole blocks. -/
def carriedLength (encrypted : Bool) (c : Command) : Nat :=
  if encrypted then securedLength c else c.data.length + 8

theorem length_wrapped_data (keys : SessionKeys) (form : LengthForm)
    (encrypted : Bool) (chain : Chain) (c : Command) :
    (wrapped keys form encrypted chain c).data.length
      = carriedLength encrypted c := by
  cases encrypted with
  | false => exact length_code c.data _
  | true => exact length_wrapped keys form chain c

/-- Under the code is the length of data and code, without what does not
fit two octets. -/
theorem codedLength_macInput (form : LengthForm) (c : Command) :
    codedLength (macInput form c) = (c.data.length + 8) % 65536 := by
  unfold codedLength
  by_cases hone : CountedInOne form c
  · have hsmall := hone.2
    rw [macInput_one hone]
    show (if UInt8.ofNat (c.data.length + 8) = 0 then _ else _) = _
    rw [if_neg (count_ne_zero hone), toNat_count hone]
    omega
  · rw [macInput_three hone]
    exact Bytes.toNat_bigEndian 2 _

/-- The length under the code is that of what is carried, modulo 65536. -/
theorem codedLength_coded (keys : SessionKeys) (form : LengthForm)
    (encrypted : Bool) (chain : Chain) (c : Command) :
    codedLength (macInput form (coded keys encrypted chain c))
      = carriedLength encrypted c % 65536 := by
  rw [codedLength_macInput, ← length_wrapped_data keys form encrypted chain c]
  exact congrArg (· % 65536) (length_code _ _).symm

/-- A command in short form that went over the channel whole is read as
commands with as much data as it has on the channel. -/
theorem Sent.parts {channel : SecureChannel} {encrypted : Bool}
    {c : Command} {link : Link σ} {chain : Chain} {frames : List Bytes}
    (hform : channel.framing.form = .short)
    (h : Sent channel encrypted c link chain frames) :
    ∃ parts : List Command,
      frames.map Command.parse = parts.map Except.ok
        ∧ (parts.map fun p => p.data.length).sum
          = carriedLength encrypted c := by
  obtain ⟨rfl, hle⟩ := h.wentOut.frames_eq
  obtain ⟨parts, hread, hdata⟩ :=
    Framing.parse_framesOf (channel.framing.limitOver link) hform hle
  refine ⟨parts, hread, ?_⟩
  have hsum := congrArg List.length hdata
  rw [List.length_flatten, List.map_map, length_wrapped_data] at hsum
  exact hsum

/-- The length under the code of a command that went over the channel in
short form is that of all the data in its frames together, without what does
not fit two octets; so it is the true length as long as that is at most
65535, and not beyond. -/
theorem coded_length_true_iff {channel : SecureChannel} {encrypted : Bool}
    {c : Command} {link : Link σ} {chain : Chain} {frames : List Bytes}
    (hform : channel.framing.form = .short)
    (h : Sent channel encrypted c link chain frames) :
    ∃ parts : List Command,
      frames.map Command.parse = parts.map Except.ok
        ∧ let total := (parts.map fun p => p.data.length).sum
          let told := codedLength (macInput channel.framing.form
            (coded channel.keys encrypted chain c))
          total = carriedLength encrypted c
            ∧ told = total % 65536
            ∧ (told = total ↔ carriedLength encrypted c ≤ 65535) := by
  obtain ⟨parts, hread, htotal⟩ := h.parts hform
  refine ⟨parts, hread, htotal, ?_, ?_⟩
  · rw [codedLength_coded, htotal]
  · rw [codedLength_coded, htotal]
    omega

/-- A command that takes a chain of three frames. -/
def chainedCommand : Command :=
  { shortCommand with data := List.replicate 600 0x3C }

/-- 600 octets are 616 on the channel, and that is what is under the
code. -/
theorem coded_length_true_chained :
    ∃ (lifetime : Nat) (frames : List Bytes) (parts : List Command),
      Sent (channelAt {}) true chainedCommand (willingLink lifetime) {} frames
        ∧ frames.map Command.parse = parts.map Except.ok
        ∧ (parts.map fun p => p.data.length).sum = 616
        ∧ codedLength (macInput .short
          (coded SessionKeys.wiped true {} chainedCommand)) = 616 := by
  have hlen : carriedLength true chainedCommand = 616 := by
    have hdata : chainedCommand.data.length = 600 := List.length_replicate
    unfold carriedLength securedLength
    rw [hdata]
    rfl
  obtain ⟨lifetime, hsent⟩ := sent_willing true (c := chainedCommand) nofun
  obtain ⟨parts, hread, htotal, -, htrue⟩ := coded_length_true_iff rfl hsent
  have htold := htrue.mpr (by rw [hlen]; decide)
  rw [htotal, hlen] at htold
  exact ⟨lifetime, _, parts, hsent, hread, htotal.trans hlen, htold⟩

/-- A command with so much data that its length with the code is 65536. -/
def longestCommand : Command :=
  { shortCommand with data := List.replicate 65528 0xCD }

/-- The length under the code of a chain may be less than that of its data:
with 65536 octets in the chain it is zero. -/
theorem long_chain_miscounted :
    ¬ ∀ (channel : SecureChannel) (encrypted : Bool) (c : Command)
        (link : Link ScriptedCard) (chain : Chain) (frames : List Bytes)
        (parts : List Command),
      channel.framing.form = .short →
      Sent channel encrypted c link chain frames →
      frames.map Command.parse = parts.map Except.ok →
      codedLength (macInput channel.framing.form
          (coded channel.keys encrypted chain c))
        = (parts.map fun p => p.data.length).sum := by
  intro h
  have hlen : carriedLength false longestCommand = 65536 := by
    have hdata : longestCommand.data.length = 65528 := List.length_replicate
    unfold carriedLength
    rw [hdata]
    rfl
  obtain ⟨lifetime, hsent⟩ := sent_willing false (c := longestCommand) nofun
  obtain ⟨parts, hread, htotal⟩ := hsent.parts rfl
  have hsame := h _ _ _ _ _ _ parts rfl hsent hread
  rw [htotal, codedLength_coded, hlen] at hsame
  exact absurd hsame (by decide)

end SmartCard.Scp03
