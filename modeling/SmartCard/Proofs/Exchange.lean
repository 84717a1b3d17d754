/-
What a piece of work over a link leaves behind: its result, and the link
as it was left. A `do` block is opened here once, at its binds, so that
the laws about commands and channels are stated of results and links and
never look inside the monad again.

# Results and links

`work.run.run link = (result, after)` is the one judgement of this layer.
A bind goes on where its first half ended well (`run_bind_ok`), and ends
where that failed (`run_bind_error`); a single frame that is handed over is
one more entry of the journal, whatever the answer (`frames_exchange`).

# Chains of frames

`Accepted` says that frames were handed over one after the other and that
each was answered 90 00. It is what a chain of frames needs before its
last frame may go out.
-/
import SmartCard.Link

namespace SmartCard

variable {σ α β : Type}

-- ======================================================= opening a block

section Blocks

-- What work leaves behind is a link here, a terminal further up, and a
-- client of another kind with errors of its own elsewhere; the binds are
-- the same.
variable {ε s : Type}

-- Giving up, looking at the state and checking something all leave the
-- state as it was.

theorem run_throw (e : ε) (before : s) :
    (throw e : ExceptT ε (StateM s) α).run.run before
      = (.error e, before) := rfl

theorem run_get (before : s) :
    (get : ExceptT ε (StateM s) s).run.run before
      = (.ok before, before) := rfl

theorem run_lift (r : Except ε α) (before : s) :
    (liftM r : ExceptT ε (StateM s) α).run.run before = (r, before) := by
  cases r <;> rfl

/-- A bind goes on from the state that its first half left. -/
theorem run_bind_ok {x : ExceptT ε (StateM s) α}
    {f : α → ExceptT ε (StateM s) β} {a : α} {before mid : s}
    (h : x.run.run before = (.ok a, mid)) :
    (x >>= f).run.run before = (f a).run.run mid := by
  rw [ExceptT.run_bind, StateT.run_bind, h]
  rfl

/-- A bind whose first half fails ends there. -/
theorem run_bind_error {x : ExceptT ε (StateM s) α}
    {f : α → ExceptT ε (StateM s) β} {e : ε} {before mid : s}
    (h : x.run.run before = (.error e, mid)) :
    (x >>= f).run.run before = (.error e, mid) := by
  rw [ExceptT.run_bind, StateT.run_bind, h]
  rfl

/-- Where work fails, its handler goes on. -/
theorem run_catch_error {x : ExceptT ε (StateM s) α}
    {handle : ε → ExceptT ε (StateM s) α} {e : ε} {before mid : s}
    (h : x.run.run before = (.error e, mid)) :
    (tryCatch x handle).run.run before = (handle e).run.run mid := by
  rw [ExceptT.run_tryCatch, StateT.run_bind, h]
  rfl

/-- Where it ends well, the handler is not asked. -/
theorem run_catch_ok {x : ExceptT ε (StateM s) α}
    {handle : ε → ExceptT ε (StateM s) α} {a : α} {before mid : s}
    (h : x.run.run before = (.ok a, mid)) :
    (tryCatch x handle).run.run before = (.ok a, mid) := by
  rw [ExceptT.run_tryCatch, StateT.run_bind, h]
  rfl

/-- A check that passes leaves its value, and the state as it was. -/
theorem run_check_ok {r : Except ε α} {f : α → ExceptT ε (StateM s) β}
    {a : α} (h : r = .ok a) (before : s) :
    (liftM r >>= f).run.run before = (f a).run.run before := by
  subst h
  exact run_bind_ok (run_lift _ _)

/-- A check that does not pass ends the work, and leaves the state as it
was. -/
theorem run_check_error {r : Except ε α} {f : α → ExceptT ε (StateM s) β}
    {e : ε} (h : r = .error e) (before : s) :
    (liftM r >>= f).run.run before = (.error e, before) := by
  subst h
  exact run_bind_error (run_lift _ _)

/-- Work that is refused in some states ends at once in such a state. -/
theorem run_guard_refused {refused : s → Prop} [DecidablePred refused]
    {e : ε} {work : ExceptT ε (StateM s) α} {before : s}
    (h : refused before) :
    (do
      if refused (← get) then throw e
      work : ExceptT ε (StateM s) α).run.run before = (.error e, before) := by
  rw [run_bind_ok (run_get before), if_pos h]
  exact run_bind_error (run_throw e before)

theorem run_map (f : α → β) (x : ExceptT ε (StateM s) α) (before : s) :
    (f <$> x).run.run before
      = ((x.run.run before).1.map f, (x.run.run before).2) := by
  rw [ExceptT.run_map]
  rfl

-- Reading what was received has no state: it ends well if each step does.

/-- A bind ends well exactly where both halves do, one after the other. -/
theorem bind_ok_iff {x : Except ε α} {f : α → Except ε β} {b : β} :
    (x >>= f) = .ok b ↔ ∃ a, x = .ok a ∧ f a = .ok b := by
  cases x <;> simp [bind, Except.bind]

/-- Rewording errors does not change what ends well. -/
theorem mapError_ok_iff {ε' : Type} {x : Except ε α} {f : ε → ε'} {a : α} :
    x.mapError f = .ok a ↔ x = .ok a := by
  cases x with
  | error e => exact ⟨nofun, nofun⟩
  | ok b =>
      constructor
      · intro h
        cases h
        rfl
      · intro h
        cases h
        rfl

end Blocks

-- ========================================================== single frames

variable [Transport σ]

/-- One exchange: the link takes the frame, and its answer is taken
apart. -/
theorem exchange_run (frame : Bytes) (link : Link σ) :
    (exchange frame).run.run link
      = match link.transmit frame with
        | (.error cause, mid) => (.error (.transport cause), mid)
        | (.ok answer, mid) => (Response.parse answer, mid) := rfl

/-- What is handed over is remembered after everything before it. -/
theorem frames_transmit (frame : Bytes) (link : Link σ) :
    (link.transmit frame).2.frames = link.frames ++ [frame] := by
  unfold Link.transmit Link.frames
  cases link.lifetime <;> simp

/-- One frame is handed over, whether or not an answer comes back. -/
theorem frames_exchange {frame : Bytes} {link after : Link σ}
    {r : Except Error Response}
    (h : (exchange frame).run.run link = (r, after)) :
    after.frames = link.frames ++ [frame] := by
  rw [← frames_transmit frame link]
  rw [exchange_run] at h
  split at h
  · next ht =>
      rw [ht]
      cases h
      rfl
  · next ht =>
      rw [ht]
      cases h
      rfl

/-- A frame that was answered has used up one exchange of the link. -/
theorem lifetime_exchange {frame : Bytes} {link after : Link σ}
    {answer : Response}
    (h : (exchange frame).run.run link = (.ok answer, after)) :
    after.lifetime + 1 = link.lifetime := by
  rw [exchange_run] at h
  unfold Link.transmit at h
  cases hlife : link.lifetime with
  | zero =>
      rw [hlife] at h
      cases h
  | succ n =>
      rw [hlife] at h
      rcases ht : Transport.transmit frame link.card with ⟨raw, card⟩
      cases raw with
      | error cause =>
          simp only [ht] at h
          cases h
      | ok octets =>
          simp only [ht] at h
          injection h with _ hafter
          rw [← hafter]

/-- An answer is taken apart unless it is shorter than a status word. -/
theorem parse_error {answer : Bytes} {e : Error}
    (h : Response.parse answer = .error e) :
    e = .protocol (.shortResponse answer.length) := by
  unfold Response.parse at h
  split at h
  · cases h
  · injection h with h
    exact h.symm

/-- What a card sends as a response is taken apart into that response. -/
theorem parse_bytes (r : Response) : Response.parse r.bytes = .ok r := by
  obtain ⟨payload, sw1, sw2⟩ := r
  show Response.parse (payload ++ [sw1, sw2]) = _
  have hlen : (payload ++ [sw1, sw2]).length - 2 = payload.length := by
    simp
  unfold Response.parse
  rw [hlen, List.drop_left, List.take_left]

/-- A frame fails at the link or by its answer, and never by its own
length. -/
theorem exchange_error {frame : Bytes} {link after : Link σ} {e : Error}
    (h : (exchange frame).run.run link = (.error e, after)) (n : Nat) :
    e ≠ .commandLength n := by
  rw [exchange_run] at h
  rintro rfl
  split at h
  · -- a link that fails gives an error of its own kind
    cases h
  · injection h with h _
    cases parse_error h

-- ======================================================= chains of frames

/-- The frames were handed over one after the other, each was answered
90 00, and that took the link from the one state to the other. -/
inductive Accepted : List Bytes → Link σ → Link σ → Prop
  | nil (link : Link σ) : Accepted [] link link
  | cons {frame : Bytes} {rest : List Bytes} {answer : Response}
      {link mid after : Link σ} :
      (exchange frame).run.run link = (.ok answer, mid) →
      answer.isSuccess = true → Accepted rest mid after →
      Accepted (frame :: rest) link after

/-- Frames that were accepted are on the journal, in their order. -/
theorem Accepted.frames {sent : List Bytes} {link after : Link σ}
    (h : Accepted sent link after) :
    after.frames = link.frames ++ sent := by
  induction h with
  | nil link => simp
  | cons hx _ _ ih => rw [ih, frames_exchange hx, List.append_assoc,
      List.singleton_append]

/-- A link answers one way: the frames determine where it ends. -/
theorem Accepted.unique {sent : List Bytes} {link a b : Link σ}
    (ha : Accepted sent link a) (hb : Accepted sent link b) : a = b := by
  induction ha with
  | nil link =>
      cases hb
      rfl
  | cons hx _ _ ih =>
      cases hb with
      | cons hy _ hrest =>
          rw [hx] at hy
          injection hy with _ hmid
          subst hmid
          exact ih hrest

end SmartCard
