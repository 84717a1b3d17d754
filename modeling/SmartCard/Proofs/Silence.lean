/-
When a piece of work stays away from the card. A session keeps some things
whatever becomes of its terminal, and work that needs no more than these
ends in one way in every session that knows the same. All other work has to
be refused for a card to hear nothing of it.

# Putting silent work together

`Silent` says that in a state the work is refused with the one given error
and leaves the state as it is, or else that what the state knows settles it.
Work in parts is silent if its parts are (`Silent.bind`): a refusal of the
first part ends it, and a settled part hands the same on everywhere. So a
session is silent in all it does once its commands are.
-/
import SmartCard.Proofs.Terminal

namespace SmartCard

variable {ε s κ α β : Type}

/-- The work is refused with an error, or it is settled by what is known:
in every state that knows the same it ends in the same way. Either leaves
the state as it is. -/
inductive Silent (known : s → κ) (e : ε) (x : ExceptT ε (StateM s) α)
    (before : s) : Prop
  | refused : x.run.run before = (.error e, before) →
      Silent known e x before
  | settled (result : Except ε α) :
      (∀ other, known other = known before →
        x.run.run other = (result, other)) → Silent known e x before

namespace Silent

variable {known : s → κ} {e : ε} {before : s}
  {x : ExceptT ε (StateM s) α} {f : α → ExceptT ε (StateM s) β}

/-- Silent work leaves the state as it is. -/
theorem unchanged (h : Silent known e x before) :
    (x.run.run before).2 = before := by
  cases h with
  | refused hrun => rw [hrun]
  | settled result hrun => rw [hrun before rfl]

theorem pure (a : α) :
    Silent known e (Pure.pure a : ExceptT ε (StateM s) α) before :=
  .settled (.ok a) fun _ _ => rfl

theorem throw (error : ε) :
    Silent known e (MonadExcept.throw error : ExceptT ε (StateM s) α)
      before :=
  .settled (.error error) fun other _ => run_throw error other

/-- Giving up is settled, whatever would come after it. -/
theorem throw_then (error : ε) (f : α → ExceptT ε (StateM s) β) :
    Silent known e (MonadExcept.throw error >>= f) before :=
  .settled (.error error) fun other _ =>
    run_bind_error (run_throw error other)

/-- A choice is silent if each branch is where it is taken. -/
theorem ite {c : Prop} [Decidable c] {y : ExceptT ε (StateM s) α}
    (hx : c → Silent known e x before) (hy : ¬ c → Silent known e y before) :
    Silent known e (if c then x else y) before := by
  by_cases h : c
  · rw [if_pos h]
    exact hx h
  · rw [if_neg h]
    exact hy h

/-- A check of something that does not depend on the state. -/
theorem lift (r : Except ε α) :
    Silent known e (liftM r : ExceptT ε (StateM s) α) before :=
  .settled r fun other _ => run_lift r other

/-- Work in two parts is silent if both parts are. -/
theorem bind (hx : Silent known e x before)
    (hf : ∀ a, Silent known e (f a) before) :
    Silent known e (x >>= f) before := by
  cases hx with
  | refused hrun => exact .refused (run_bind_error hrun)
  | settled result hrun =>
      cases result with
      | error error =>
          exact .settled (.error error) fun other hother =>
            run_bind_error (hrun other hother)
      | ok a =>
          cases hf a with
          | refused hrest =>
              exact .refused ((run_bind_ok (hrun before rfl)).trans hrest)
          | settled result hrest =>
              exact .settled result fun other hother =>
                (run_bind_ok (hrun other hother)).trans (hrest other hother)

/-- Whatever would be done with what a refused part hands on, there is
none. -/
theorem refused_then (hx : x.run.run before = (.error e, before)) :
    Silent known e (x >>= f) before :=
  .refused (run_bind_error hx)

/-- Work may go by what is known, and be other work in other states. -/
theorem congr {y : ExceptT ε (StateM s) α}
    (hxy : ∀ other, known other = known before →
      x.run.run other = y.run.run other)
    (hy : Silent known e y before) : Silent known e x before := by
  cases hy with
  | refused hrun => exact .refused ((hxy before rfl).trans hrun)
  | settled result hrun =>
      exact .settled result fun other hother =>
        (hxy other hother).trans (hrun other hother)

/-- A refusal that is passed on is a refusal. -/
theorem catch_refused {handle : ε → ExceptT ε (StateM s) α}
    (hx : x.run.run before = (.error e, before))
    (hhandle : (handle e).run.run before = (.error e, before)) :
    Silent known e (tryCatch x handle) before :=
  .refused ((run_catch_error hx).trans hhandle)

end Silent

-- ================================================================== steps

/-- What is done with a session: it is called, or it is closed. -/
inductive Step (Call : Type → Type) : Type 1
  | call {α : Type} (call : Call α)
  | close

namespace Step

variable {Call : Type → Type}

/-- The state in which a step leaves a session, however it ended. -/
def leave (run : ∀ {α : Type}, Call α → ExceptT ε (StateM s) α)
    (closing : ExceptT ε (StateM s) Unit) : Step Call → s → s
  | call c, before => ((run c).run.run before).2
  | close, before => (closing.run.run before).2

/-- The state in which steps leave it, one after the other. -/
def leaveAll (run : ∀ {α : Type}, Call α → ExceptT ε (StateM s) α)
    (closing : ExceptT ε (StateM s) Unit) (steps : List (Step Call))
    (before : s) : s :=
  steps.foldl (fun now step => step.leave run closing now) before

variable {run : ∀ {α : Type}, Call α → ExceptT ε (StateM s) α}
  {closing : ExceptT ε (StateM s) Unit} {known : s → κ} {e : ε} {before : s}

/-- Where every call is silent, and closing changes nothing, no step changes
anything. -/
theorem leave_unchanged
    (hcall : ∀ {α : Type} (c : Call α), Silent known e (run c) before)
    (hclosing : closing.run.run before = (.ok (), before))
    (step : Step Call) : step.leave run closing before = before := by
  cases step with
  | call c => exact (hcall c).unchanged
  | close => exact congrArg Prod.snd hclosing

/-- Nor does any sequence of steps. -/
theorem leaveAll_unchanged
    (hcall : ∀ {α : Type} (c : Call α), Silent known e (run c) before)
    (hclosing : closing.run.run before = (.ok (), before))
    (steps : List (Step Call)) :
    leaveAll run closing steps before = before := by
  induction steps with
  | nil => rfl
  | cons step steps ih =>
      unfold leaveAll
      rw [List.foldl_cons, leave_unchanged hcall hclosing step]
      exact ih

/-- So once a session was closed, it stays as closing left it, whatever is
done with it. -/
theorem silent_since {closed : s → Prop}
    (hcloses : ∀ now, closed (closing.run.run now).2)
    (hagain : ∀ now, closed now → closing.run.run now = (.ok (), now))
    (hcall : ∀ now, closed now → ∀ {α : Type} (c : Call α),
      Silent known e (run c) now) (before : s) (steps : List (Step Call)) :
    let after := (closing.run.run before).2
    let later := leaveAll run closing steps after
    later = after ∧ closed later ∧ closing.run.run later = (.ok (), later)
      ∧ ∀ {α : Type} (c : Call α), Silent known e (run c) later := by
  intro after later
  have hclosed : closed after := hcloses before
  have hlater : later = after :=
    leaveAll_unchanged (hcall after hclosed) (hagain after hclosed) steps
  rw [hlater]
  exact ⟨rfl, hclosed, hagain after hclosed, hcall after hclosed⟩

end Step

end SmartCard
