/-
Two promises about what a host puts on a link, and exactly where they
hold. A command that can not be encoded should be refused before any of it
is sent; and no frame should be longer than the limit that host and link
agreed on.

# Where they fail

Both fail in short form at the last frame of a chain, which is looked at
after the frames before it went out.

- The answer length is in the last frame alone, so one that does not fit
  is found when the card is in the middle of the chain (`MisfitChain`).
- The room in a frame is worked out without the octet of the answer
  length, so a full last chunk with an answer length is one octet too long
  (`FullChain`).

In extended form a command is one frame, encoded and measured before
anything is sent, and neither happens.
-/
import SmartCard.Card.Scripted
import SmartCard.Proofs.Apdu.Chaining

namespace SmartCard.Framing

variable {σ : Type} [Transport σ]

-- ======================================================= refused commands

/-- A chain whose last frame can not be encoded, although there are frames
before it: the answer length does not fit. -/
def MisfitChain (framing : Framing) (limit : Nat) (c : Command) : Prop :=
  framing.form = .short ∧ chunkSize limit < c.data.length
    ∧ ¬ c.LeFits .short

/-- A command that is refused for its length was refused untouched, or its
chain was answered up to the last frame. -/
theorem commandLength_run {framing : Framing} {c : Command}
    {link after : Link σ} {n : Nat}
    (h : (framing.send c).run.run link = (.error (.commandLength n), after)) :
    after = link
      ∨ (framing.form = .short ∧ ¬ c.LeFits .short
        ∧ Accepted (leadingFrames (chunkSize (framing.limitOver link)) c)
          link after) := by
  rw [send_run] at h
  rcases hb : (begin framing (framing.limitOver link) c).run.run link
    with ⟨e | first, mid⟩
  · rw [hb] at h
    injection h with he hmid
    injection he with he
    subst he hmid
    cases hform : framing.form with
    | short =>
        rw [begin_short hform] at hb
        rcases sendShort_run (framing.limitOver link) c link with
          ⟨e, after, hrun, _, hne⟩ | ⟨_, mid', _, hrun⟩
            | ⟨n', mid', hle, hbad, hacc, hrun⟩
        · rw [hrun] at hb
          injection hb with he _
          injection he with he
          exact absurd he (hne n)
        · rw [hrun] at hb
          exact absurd rfl (exchange_error hb n)
        · rw [hrun] at hb
          injection hb with _ hmid
          subst hmid
          exact Or.inr ⟨rfl, Command.not_leFits.mpr ⟨n', hle, hbad⟩, hacc⟩
    | extended =>
        rw [begin_extended hform] at hb
        rcases sendExtended_run (framing.limitOver link) c link with
          ⟨e, hrun⟩ | ⟨_, _, hrun⟩
        · rw [hrun] at hb
          injection hb with _ hmid
          exact Or.inl hmid.symm
        · rw [hrun] at hb
          exact absurd rfl (exchange_error hb n)
  · rw [hb] at h
    exact absurd rfl ((gather_frames h).2 n)

/-- A chain that can not be finished is refused when its other frames were
answered, and then they have gone out. -/
theorem misfitChain_run {framing : Framing} {c : Command}
    {link mid : Link σ}
    (hbad : MisfitChain framing (framing.limitOver link) c)
    (hacc : Accepted (leadingFrames (chunkSize (framing.limitOver link)) c)
      link mid) :
    ∃ n, (framing.send c).run.run link
      = (.error (.commandLength n), mid) := by
  obtain ⟨hform, _, hle⟩ := hbad
  rcases sendShort_run (framing.limitOver link) c link
    with ⟨_, _, _, hstop, _⟩ | ⟨hle', _⟩ | ⟨n, mid', _, _, hacc', hrun⟩
  · exact absurd ⟨mid, hacc⟩ hstop.not_accepted
  · exact absurd hle' hle
  · refine ⟨n, ?_⟩
    rw [hacc.unique hacc', send_run, begin_short hform, hrun]

/-- A command that is refused for its length has left nothing on the link,
except where it is a chain with a misfit in its last frame and the card
answered all the other frames. -/
theorem untouched_unless_misfit_chain (framing : Framing) (c : Command)
    (link : Link σ) :
    (∀ n after, (framing.send c).run.run link
        = (.error (.commandLength n), after) →
      after.frames = link.frames)
      ↔ ¬ (MisfitChain framing (framing.limitOver link) c
        ∧ ∃ mid, Accepted (leadingFrames
            (chunkSize (framing.limitOver link)) c) link mid) := by
  constructor
  · rintro h ⟨hbad, mid, hacc⟩
    obtain ⟨n, hrun⟩ := misfitChain_run hbad hacc
    have hsame := h n mid hrun
    rw [hacc.frames, List.append_right_eq_self,
      leadingFrames_eq_nil_iff (chunkSize_pos _)] at hsame
    exact absurd hsame (Nat.not_le.mpr hbad.2.1)
  · intro h n after hrun
    rcases commandLength_run hrun with rfl | ⟨hform, hle, hacc⟩
    · rfl
    · -- a chain of one frame has nothing before the misfit
      by_cases hlong : chunkSize (framing.limitOver link) < c.data.length
      · exact absurd ⟨⟨hform, hlong, hle⟩, after, hacc⟩ h
      · have hnil := (leadingFrames_eq_nil_iff (chunkSize_pos _) c).mpr
          (Nat.not_lt.mp hlong)
        rw [hacc.frames, hnil, List.append_nil]

/-- A command that stores some octets in an object. -/
def store (data : Bytes) (le : Option Nat) : Command where
  cla := 0x00
  ins := 0xDB
  p1 := 0x3F
  p2 := 0xFF
  data
  le

/-- A link that carries frames of seven octets, to a card that answers
90 00 to each. -/
def narrowLink : Link ScriptedCard where
  card := { script := .queue [[0x90, 0x00]], frameLimit := some 7 }
  lifetime := 3

/-- A refused command may have left a frame on the link: three octets go
in frames of two, and the answer that is asked for may have none. -/
theorem misfit_chain_goes_out :
    ¬ ∀ (framing : Framing) (c : Command) (link : Link ScriptedCard)
        (n : Nat) (after : Link ScriptedCard),
      (framing.send c).run.run link = (.error (.commandLength n), after) →
      after.frames = link.frames := by
  intro h
  have hframes := h {} (store [0x01, 0x02, 0x03] (some 0)) narrowLink 0 _ rfl
  exact absurd (congrArg List.length hframes) (by decide)

-- ============================================================ long frames

/-- A chain whose last frame is full and also asks for an answer: the data
ends with a chunk, and the limit and not the short form bounds the
chunks. -/
def FullChain (framing : Framing) (limit : Nat) (c : Command) : Prop :=
  framing.form = .short ∧ c.le.isSome ∧ limit ≤ 260
    ∧ 0 < c.data.length ∧ limit - 5 ∣ c.data.length

/-- A chunk and what stands in front of it keep to the limit. -/
theorem chunkSize_add_le {limit : Nat} (h : 6 ≤ limit) :
    chunkSize limit + 5 ≤ limit := by
  unfold chunkSize
  omega

/-- So do the leading frames of a chain. -/
theorem length_of_mem_leadingFrames {limit : Nat} (hlimit : 6 ≤ limit)
    {c : Command} {frame : Bytes}
    (hmem : frame ∈ leadingFrames (chunkSize limit) c) :
    frame.length ≤ limit := by
  obtain ⟨piece, hpiece, rfl⟩ := List.mem_map.mp hmem
  have hlen := length_of_mem_leadingChunks hpiece
  have hpos := chunkSize_pos limit
  have hne : piece ≠ [] := by
    intro hnil
    rw [hnil, List.length_nil] at hlen
    omega
  rw [length_leadingFrame c hne, hlen]
  have := chunkSize_add_le hlimit
  omega

/-- Between the least and the largest frame, a chunk takes all that the
limit leaves. -/
theorem chunkSize_eq_sub {limit : Nat} (hlow : 6 ≤ limit)
    (hhigh : limit ≤ 260) : chunkSize limit = limit - 5 := by
  unfold chunkSize
  omega

/-- The last frame holds the header, the last chunk with its length where
there is one, and the answer length where one is asked for. -/
theorem length_lastFrame (chunk : Nat) (c : Command) :
    (lastFrame chunk c).length
      = 4 + (if lastChunk chunk c.data = [] then 0
          else 1 + (lastChunk chunk c.data).length)
        + (if c.le.isSome then 1 else 0) :=
  Command.length_short _

/-- The last frame is too long exactly where it is full and also asks for
an answer. -/
theorem length_lastFrame_le_iff {framing : Framing} {limit : Nat}
    {c : Command} (hform : framing.form = .short) (hlimit : 7 ≤ limit) :
    (lastFrame (chunkSize limit) c).length ≤ limit
      ↔ ¬ FullChain framing limit c := by
  have hlow : 6 ≤ limit := Nat.le_of_succ_le hlimit
  have hfull := length_lastChunk_eq_iff (chunkSize_pos limit) c.data
  constructor
  · rintro hle ⟨-, hsome, hhigh, hdata, hdvd⟩
    have hchunk := chunkSize_eq_sub hlow hhigh
    have hlast := hfull.mpr ⟨hdata, by rw [hchunk]; exact hdvd⟩
    have hne : lastChunk (chunkSize limit) c.data ≠ [] := by
      intro hnil
      rw [hnil, List.length_nil] at hlast
      omega
    rw [length_lastFrame, if_neg hne, if_pos hsome, hlast] at hle
    omega
  · intro hnot
    have hchunk := chunkSize_add_le hlow
    have hcap := chunkSize_le limit
    have hlast := length_lastChunk_le (chunkSize_pos limit) c.data
    by_cases hsome : c.le.isSome
    · by_cases heq : (lastChunk (chunkSize limit) c.data).length
          = limit - 5
      · -- a last chunk of this size is a full one, so the data ends with it
        have hsize : chunkSize limit = limit - 5 := by omega
        obtain ⟨hdata, hdvd⟩ := hfull.mp (by omega)
        rw [hsize] at hdvd
        exact absurd ⟨hform, hsome, by omega, hdata, hdvd⟩ hnot
      · rw [length_lastFrame, if_pos hsome]
        split <;> omega
    · rw [length_lastFrame, if_neg hsome]
      split <;> omega

/-- Frames that ask for more keep to any limit of five octets. -/
theorem length_of_mem_followUps {limit : Nat} (hlimit : 5 ≤ limit)
    {ins : UInt8} {counts : List Nat} {frame : Bytes}
    (hmem : frame ∈ counts.map (followUpFrame ins)) :
    frame.length ≤ limit := by
  obtain ⟨count, _, rfl⟩ := List.mem_map.mp hmem
  rw [length_followUpFrame]
  exact hlimit

/-- A chain that is answered up to its last frame hands over one frame
that may be too long, its last. -/
theorem within_limit_of_accepted {framing : Framing} {limit : Nat}
    {c : Command} (hform : framing.form = .short) (hlimit : 7 ≤ limit)
    (counts : List Nat) :
    (∀ frame ∈ leadingFrames (chunkSize limit) c
          ++ lastFrame (chunkSize limit) c
            :: counts.map (followUpFrame framing.getResponse),
        frame.length ≤ limit)
      ↔ ¬ FullChain framing limit c := by
  rw [← length_lastFrame_le_iff hform hlimit]
  constructor
  · exact fun hall =>
      hall _ (List.mem_append_right _ List.mem_cons_self)
  · intro hlast frame hmem
    rcases List.mem_append.mp hmem with hmem | hmem
    · exact length_of_mem_leadingFrames (by omega) hmem
    · rcases List.mem_cons.mp hmem with rfl | hmem
      · exact hlast
      · exact length_of_mem_followUps (by omega) hmem

/-- What a command hands over under a limit of seven octets or more keeps
within it, except where the last frame of a chain is full and also asks
for an answer, and the card answered all the other frames. -/
theorem within_limit_unless_full_chain (framing : Framing) (c : Command)
    (link : Link σ) (hle : c.LeFits framing.form)
    (hlimit : 7 ≤ framing.limitOver link) :
    ∃ sent : List Bytes,
      ((framing.send c).run.run link).2.frames = link.frames ++ sent
      ∧ ((∀ frame ∈ sent, frame.length ≤ framing.limitOver link)
          ↔ ¬ (FullChain framing (framing.limitOver link) c
            ∧ ∃ mid, Accepted (leadingFrames
                (chunkSize (framing.limitOver link)) c) link mid)) := by
  generalize hL : framing.limitOver link = limit at hlimit ⊢
  cases hform : framing.form with
  | extended =>
      have hnot : ¬ (FullChain framing limit c
          ∧ ∃ mid, Accepted (leadingFrames (chunkSize limit) c)
            link mid) := by
        rintro ⟨⟨hshort, _⟩, _⟩
        rw [hform] at hshort
        cases hshort
      rcases frames_send_extended hform hL with
        hframes | ⟨hlen, counts, hframes⟩
      · refine ⟨[], by rw [hframes, List.append_nil], fun _ => hnot, ?_⟩
        intro _ frame hmem
        cases hmem
      · refine ⟨_, hframes, fun _ => hnot, ?_⟩
        intro _ frame hmem
        rcases List.mem_cons.mp hmem with rfl | hmem
        · exact hlen
        · exact length_of_mem_followUps (by omega) hmem
  | short =>
      rw [hform] at hle
      rcases frames_send_short hform hle hL with
        ⟨k, hframes, hnot⟩ | ⟨mid, counts, hacc, hframes⟩
      · refine ⟨_, hframes, fun _ h => hnot h.2, ?_⟩
        intro _ frame hmem
        exact length_of_mem_leadingFrames (by omega)
          (List.mem_of_mem_take hmem)
      · refine ⟨_, hframes, ?_⟩
        rw [within_limit_of_accepted hform hlimit counts]
        constructor
        · exact fun hnot h => hnot h.1
        · exact fun hnot hfull => hnot ⟨hfull, mid, hacc⟩

/-- Three octets in frames of two, with an answer asked for: a chain whose
last frame is not full. -/
theorem within_limit_store :
    (store [0x01, 0x02, 0x03] (some 1)).LeFits .short
      ∧ 7 ≤ Framing.limitOver {} narrowLink
      ∧ ∃ sent : List Bytes,
        ((send {} (store [0x01, 0x02, 0x03] (some 1))).run.run
          narrowLink).2.frames = narrowLink.frames ++ sent
        ∧ ((∀ frame ∈ sent, frame.length ≤ 7)
          ↔ ¬ (FullChain {} 7 (store [0x01, 0x02, 0x03] (some 1))
            ∧ ∃ mid, Accepted (leadingFrames 2
                (store [0x01, 0x02, 0x03] (some 1))) narrowLink mid)) := by
  have hle : (store [0x01, 0x02, 0x03] (some 1)).LeFits .short := by
    rintro n ⟨⟩
    decide
  have hlimit : 7 ≤ Framing.limitOver {} narrowLink := by decide
  exact ⟨hle, hlimit,
    within_limit_unless_full_chain {} _ narrowLink hle hlimit⟩

/-- A frame may be longer than the limit: two octets fill a frame of
seven, and the octet that asks for an answer is the eighth. -/
theorem full_chain_exceeds_limit :
    ¬ ∀ (framing : Framing) (c : Command) (link : Link ScriptedCard)
        (sent : List Bytes),
      c.LeFits framing.form →
      7 ≤ framing.limitOver link →
      ((framing.send c).run.run link).2.frames = link.frames ++ sent →
      ∀ frame ∈ sent, frame.length ≤ framing.limitOver link := by
  intro h
  have hle : (store [0x01, 0x02] (some 1)).LeFits .short := by
    rintro n ⟨⟩
    decide
  have hlong := h {} (store [0x01, 0x02] (some 1)) narrowLink
    [[0x00, 0xDB, 0x3F, 0xFF, 0x02, 0x01, 0x02, 0x01]] hle (by decide) rfl
    _ List.mem_cons_self
  exact absurd hlong (by decide)

end SmartCard.Framing
