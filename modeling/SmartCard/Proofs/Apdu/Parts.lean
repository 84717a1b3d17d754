/-
What holds of carrying a command over a link because it holds of every
exchange. The leading frames of a chain, the last frame and the gathering of
an answer are put together from encoded frames, exchanges and refusals of
the framing itself, whatever the limits. A property that these have and that
is kept when work is put together (`Composed`) is a property of the whole
command (`Composed.send`). None of the refusals carries a status.
-/
import SmartCard.Apdu.Framing

namespace SmartCard

variable {σ : Type} [Transport σ]

/-- A property of work over a link that is kept when work is put together,
and that single exchanges have. -/
structure Composed (P : (α : Type) → Exchange σ α → Prop) : Prop where
  pure {α : Type} (a : α) : P α (Pure.pure a)
  get : P (Link σ) MonadState.get
  throw (α : Type) {e : Error} : e.statusWord? = none →
    P α (MonadExcept.throw e)
  encode (form : LengthForm) (c : Command) : P Bytes (liftM (c.encode form))
  exchange (frame : Bytes) : P Response (exchange frame)
  bind {α β : Type} {x : Exchange σ α} {f : α → Exchange σ β} :
    P α x → (∀ a, P β (f a)) → P β (x >>= f)

namespace Composed

variable {P : (α : Type) → Exchange σ α → Prop}

/-- The leading frames of a chain, one after the other, have a property of
their parts. -/
theorem sendLeading (h : Composed P) (c : Command) (sent : Nat)
    (pieces : List Bytes) : P Unit (Framing.sendLeading c sent pieces) := by
  induction pieces generalizing sent with
  | nil => exact h.pure ()
  | cons piece rest ih =>
      unfold Framing.sendLeading
      refine h.bind (h.encode _ _) fun frame =>
        h.bind (h.exchange frame) fun answer => ?_
      -- a refusal ends the chain, and what follows it is not reached
      by_cases hok : answer.isSuccess = true
      · simp only [hok, if_true]
        exact ih (sent + 1)
      · simp only [hok]
        exact h.bind (h.throw _ rfl) fun _ => ih (sent + 1)

/-- So has asking for the rest of an answer, by induction on how often it
may be asked for. -/
theorem gather (h : Composed P) (ins : UInt8) (fuel : Nat) (payload : Bytes)
    (status : StatusWord) :
    P Response (Framing.gather ins fuel payload status) := by
  induction fuel generalizing payload status with
  | zero =>
      unfold Framing.gather
      cases status.remaining? with
      | none => exact h.pure _
      | some count => exact h.throw _ rfl
  | succ fuel ih =>
      unfold Framing.gather
      cases status.remaining? with
      | none => exact h.pure _
      | some count =>
          exact h.bind (h.encode _ _) fun frame =>
            h.bind (h.exchange frame) fun answer => ih _ _

/-- So has a whole chain. -/
theorem sendShort (h : Composed P) (limit : Nat) (c : Command) :
    P Response (Framing.sendShort limit c) :=
  h.bind (h.sendLeading c 0 _) fun _ => h.bind (h.encode _ _) h.exchange

theorem sendExtended (h : Composed P) (limit : Nat) (c : Command) :
    P Response (Framing.sendExtended limit c) := by
  unfold Framing.sendExtended
  refine h.bind (h.encode _ _) fun frame => ?_
  by_cases hlong : frame.length > limit
  · simp only [hlong, if_true]
    exact h.bind (h.throw _ rfl) fun _ => h.exchange frame
  · simp only [hlong, if_false]
    exact h.exchange frame

/-- What holds of every exchange holds of a command. -/
theorem send (h : Composed P) (framing : Framing) (c : Command) :
    P Response (framing.send c) := by
  unfold Framing.send
  refine h.bind h.get fun link => ?_
  cases framing.form with
  | short =>
      exact h.bind (h.sendShort _ c) fun first =>
        h.bind h.get fun mid => h.gather _ _ _ _
  | extended =>
      exact h.bind (h.sendExtended _ c) fun first =>
        h.bind h.get fun mid => h.gather _ _ _ _

end Composed

end SmartCard
