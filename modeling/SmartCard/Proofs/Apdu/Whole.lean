/-
A command that went out whole, seen from the link. It has a number of
frames that is known before anything is sent, and it went out whole where
so many frames were handed over and nothing behind them but requests for
the rest of the answer. What came of the last frame makes no difference:
the card may have answered it, refused it, or never have got it.

# Counting is enough

Frames of a chain can be the same octets, and a command may be marked as a
chain itself, so no single frame shows that it is the last one. Their
number does. A chain that stops, and one whose last frame can not be
encoded, have handed over fewer frames than the command has
(`handed_short`); so frames that are as many as the command has are its
frames (`WentOut.frames_eq`).
-/
import SmartCard.Proofs.Apdu.Gathering
import SmartCard.Proofs.Apdu.Splitting

namespace SmartCard.Framing

open Command (LeFits Fits)

-- ============================================================= the frames

/-- How many frames a command has under a limit. -/
def frameTotal (framing : Framing) (limit : Nat) (c : Command) : Nat :=
  match framing.form with
  | .short => leadingCount (chunkSize limit) c.data + 1
  | .extended => 1

/-- The frames of a command under a limit. -/
def framesOf (framing : Framing) (limit : Nat) (c : Command) : List Bytes :=
  match framing.form with
  | .short => leadingFrames (chunkSize limit) c
      ++ [lastFrame (chunkSize limit) c]
  | .extended => [c.header ++ c.body .extended]

theorem frameTotal_pos (framing : Framing) (limit : Nat) (c : Command) :
    0 < frameTotal framing limit c := by
  unfold frameTotal
  cases framing.form with
  | short => exact Nat.succ_pos _
  | extended => exact Nat.one_pos

/-- There is one leading frame for each leading chunk. -/
theorem length_leadingFrames (chunk : Nat) (c : Command) :
    (leadingFrames chunk c).length = leadingCount chunk c.data := by
  unfold leadingFrames
  rw [List.length_map, length_leadingChunks]

/-- The frames of a command are as many as were counted. -/
theorem length_framesOf (framing : Framing) (limit : Nat) (c : Command) :
    (framesOf framing limit c).length = frameTotal framing limit c := by
  unfold framesOf frameTotal
  cases framing.form with
  | short =>
      simp only [List.length_append, length_leadingFrames,
        List.length_singleton]
  | extended => rfl

/-- A chain with no frame before the last has all of the data in it. -/
theorem lastCommand_whole {chunk : Nat} (hpos : 0 < chunk) {c : Command}
    (hlen : c.data.length ≤ chunk) : lastCommand chunk c = c := by
  have hnone := (leadingCount_eq_zero_iff hpos c.data).mpr hlen
  unfold lastCommand lastChunk
  rw [hnone, Nat.mul_zero, List.drop_zero]

/-- A command in short form with no more data than a frame may hold is one
frame. -/
theorem framesOf_single {framing : Framing} {limit : Nat} {c : Command}
    (hform : framing.form = .short)
    (hlen : c.data.length ≤ chunkSize limit) :
    framesOf framing limit c = [c.header ++ c.body .short] := by
  have hpos := chunkSize_pos limit
  unfold framesOf lastFrame
  simp only [hform]
  rw [(leadingFrames_eq_nil_iff hpos c).mpr hlen, List.nil_append,
    lastCommand_whole hpos hlen]

/-- A command with one frame is that frame, and in short form its data is
no longer than a short frame holds. -/
theorem framesOf_eq_singleton {framing : Framing} {limit : Nat}
    {c : Command} {frame : Bytes}
    (h : framesOf framing limit c = [frame]) :
    frame = c.header ++ c.body framing.form
      ∧ (framing.form = .short → c.data.length ≤ 255) := by
  cases hform : framing.form with
  | short =>
      have hlen : c.data.length ≤ chunkSize limit := by
        have hcount := length_framesOf framing limit c
        rw [h, List.length_singleton] at hcount
        unfold frameTotal at hcount
        simp only [hform] at hcount
        rw [← leadingCount_eq_zero_iff (chunkSize_pos limit)]
        omega
      rw [framesOf_single hform hlen] at h
      injection h with hframe
      exact ⟨hframe.symm, fun _ => Nat.le_trans hlen (chunkSize_le limit)⟩
  | extended =>
      unfold framesOf at h
      simp only [hform] at h
      injection h with hframe
      exact ⟨hframe.symm, nofun⟩

/-- What a card reads in the frames of a command in short form has the data
of the command in it, in order. -/
theorem parse_framesOf {framing : Framing} (limit : Nat) {c : Command}
    (hform : framing.form = .short) (hle : c.LeFits framing.form) :
    ∃ parts : List Command,
      (framesOf framing limit c).map Command.parse = parts.map Except.ok
        ∧ (parts.map Command.data).flatten = c.data := by
  rw [hform] at hle
  obtain ⟨parts, last, hparts, hlast, hcarries⟩ := read_chain limit hle
  refine ⟨parts ++ [last], ?_, ?_⟩
  · unfold framesOf
    simp only [hform, List.map_append, List.map_cons, List.map_nil, hparts,
      hlast]
  · rw [List.map_append, List.flatten_append, List.map_cons, List.map_nil,
      List.flatten_singleton]
    exact hcarries.whole

-- ========================================================= what was handed

variable {σ : Type} [Transport σ]

/-- These frames of a command were handed over, and behind them nothing but
requests for the rest of the answer. -/
def Handed (framing : Framing) (c : Command) (link : Link σ)
    (frames : List Bytes) : Prop :=
  ∃ counts : List Nat, ((framing.send c).run.run link).2.frames
    = link.frames
      ++ (frames ++ counts.map (followUpFrame framing.getResponse))

/-- A chain whose leading frames were all answered 90 00 is handed over to
its last frame. -/
theorem handed_accepted {framing : Framing} {c : Command}
    {link mid : Link σ} (hform : framing.form = .short)
    (hle : c.LeFits .short)
    (hacc : Accepted (leadingFrames (chunkSize (framing.limitOver link)) c)
      link mid) :
    Handed framing c link (framesOf framing (framing.limitOver link) c) := by
  have hrun := sendShort_accepted hle hacc
  rw [← begin_short hform] at hrun
  obtain ⟨counts, hframes⟩ := frames_send_answered hrun
  refine ⟨counts, ?_⟩
  unfold framesOf
  rw [hframes, hacc.frames]
  simp only [hform, List.append_assoc, List.singleton_append]

/-- The frame of a command that fits one extended frame is handed over. -/
theorem handed_fits {framing : Framing} {c : Command} {link : Link σ}
    (hform : framing.form = .extended) (hfits : c.Fits .extended)
    (hlen : (c.header ++ c.body .extended).length
      ≤ framing.limitOver link) :
    Handed framing c link (framesOf framing (framing.limitOver link) c) := by
  have hrun := sendExtended_fits hfits hlen link
  rw [← begin_extended hform] at hrun
  obtain ⟨counts, hframes⟩ := frames_send_answered hrun
  refine ⟨counts, ?_⟩
  unfold framesOf
  simp only [hform]
  exact hframes

/-- What a command in short form hands over: a part of the frames before
its last one, or all of its frames and then requests for the rest of the
answer. -/
theorem handed_short {framing : Framing} (c : Command) (link : Link σ)
    (hform : framing.form = .short) :
    (∃ k, ((framing.send c).run.run link).2.frames
        = link.frames
          ++ (leadingFrames (chunkSize (framing.limitOver link)) c).take k)
      ∨ (c.LeFits .short
        ∧ Handed framing c link
          (framesOf framing (framing.limitOver link) c)) := by
  have hbegin := begin_short (σ := σ) hform (framing.limitOver link) c
  rcases sendShort_run (framing.limitOver link) c link with
    ⟨e, after, hrun, hstop, -⟩ | ⟨hle, mid, hacc, -⟩
      | ⟨n, mid, -, -, hacc, hrun⟩
  · obtain ⟨k, -, -, hframes⟩ := hstop.frames
    refine Or.inl ⟨k, ?_⟩
    rw [send_run, hbegin, hrun]
    exact hframes
  · exact Or.inr ⟨hle, handed_accepted hform hle hacc⟩
  · -- the whole of the leading frames, and then nothing
    refine Or.inl ⟨(leadingFrames (chunkSize (framing.limitOver link))
      c).length, ?_⟩
    rw [send_run, hbegin, hrun, List.take_length]
    exact hacc.frames

/-- What a command in extended form hands over: nothing, or its frame and
then requests for the rest of the answer. -/
theorem handed_extended {framing : Framing} (c : Command) (link : Link σ)
    (hform : framing.form = .extended) :
    ((framing.send c).run.run link).2.frames = link.frames
      ∨ (c.LeFits .extended
        ∧ Handed framing c link
          (framesOf framing (framing.limitOver link) c)) := by
  have hbegin := begin_extended (σ := σ) hform (framing.limitOver link) c
  rcases sendExtended_run (framing.limitOver link) c link with
    ⟨e, hrun⟩ | ⟨hfits, hlen, -⟩
  · rw [send_run, hbegin, hrun]
    exact Or.inl rfl
  · exact Or.inr ⟨hfits.le, handed_fits hform hfits hlen⟩

/-- A command went out whole in these frames: they were handed over, and
they are as many as it has. -/
structure WentOut (framing : Framing) (c : Command) (link : Link σ)
    (frames : List Bytes) : Prop where
  count : frames.length = frameTotal framing (framing.limitOver link) c
  handed : Handed framing c link frames

/-- Frames in which a command went out whole are its frames, and they could
be encoded. -/
theorem WentOut.frames_eq {framing : Framing} {c : Command} {link : Link σ}
    {frames : List Bytes} (h : WentOut framing c link frames) :
    frames = framesOf framing (framing.limitOver link) c
      ∧ c.LeFits framing.form := by
  obtain ⟨hcount, counts, hhanded⟩ := h
  -- as many frames on both sides, so what stands behind them does not matter
  have hsame : Handed framing c link
        (framesOf framing (framing.limitOver link) c) →
      frames = framesOf framing (framing.limitOver link) c := by
    rintro ⟨others, hothers⟩
    rw [hothers] at hhanded
    refine (List.append_inj (List.append_cancel_left hhanded) ?_).1.symm
    rw [length_framesOf, hcount]
  cases hform : framing.form with
  | short =>
      rcases handed_short c link hform with
        ⟨k, hpart⟩ | ⟨hle, hwhole⟩
      · -- a part of the leading frames is too short
        have hlen := congrArg List.length
          (List.append_cancel_left (hhanded.symm.trans hpart))
        rw [List.length_append, List.length_take, length_leadingFrames,
          hcount] at hlen
        unfold frameTotal at hlen
        simp only [hform] at hlen
        omega
      · exact ⟨hsame hwhole, hle⟩
  | extended =>
      rcases handed_extended c link hform with
        hnone | ⟨hle, hwhole⟩
      · have hlen := congrArg List.length (hhanded.symm.trans hnone)
        have hpos := frameTotal_pos framing (framing.limitOver link) c
        simp only [List.length_append, hcount] at hlen
        omega
      · exact ⟨hsame hwhole, hle⟩

/-- A command whose last frame was answered went out whole. -/
theorem Begun.wentOut {framing : Framing} {c : Command}
    {link after : Link σ} {first : Response}
    (h : Begun framing c link first after) :
    WentOut framing c link (framesOf framing (framing.limitOver link) c) := by
  refine ⟨length_framesOf _ _ _, ?_⟩
  cases h with
  | short hform hle hacc _ => exact handed_accepted hform hle hacc
  | extended hform hfits hlen _ => exact handed_fits hform hfits hlen

end SmartCard.Framing
