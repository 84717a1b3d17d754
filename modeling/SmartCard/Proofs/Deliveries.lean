/-
The card moves with the frames that are handed over, and with nothing else.
A link is left as its frames leave it one after the other (`Delivered`),
however a command was put into frames and wherever it was given up. So what
no frame changes about a card is the same afterwards (`Delivered.keeps`),
and since the frames of a request show its command, it is enough to know
what commands do (`Terminal.Asked.delivered`).

# Putting work together

`Delivers` is kept by the parts of a block (`Delivers.bind`), and of a single
exchange it holds by what a link is. So it holds of whole commands
(`delivers_composed`), and over a secure channel as well, which leaves the
link as the protected command does.
-/
import SmartCard.Proofs.Apdu.Parts
import SmartCard.Proofs.Requests

namespace SmartCard

variable {σ α β : Type} [Transport σ]

-- ============================================================== the link

/-- The frames were handed over one after the other, whatever came back, and
took the link from the one state to the other. -/
inductive Delivered : List Bytes → Link σ → Link σ → Prop
  | nil (link : Link σ) : Delivered [] link link
  | cons {frame : Bytes} {rest : List Bytes} {link after : Link σ} :
      Delivered rest (link.transmit frame).2 after →
      Delivered (frame :: rest) link after

namespace Delivered

variable {link mid after : Link σ} {sent rest : List Bytes}

/-- Deliveries one after the other are one delivery. -/
theorem append (h : Delivered sent link mid) (hrest : Delivered rest mid after) :
    Delivered (sent ++ rest) link after := by
  induction h with
  | nil link => exact hrest
  | cons _ ih => exact .cons (ih hrest)

/-- What was delivered is on the journal. -/
theorem frames (h : Delivered sent link after) :
    after.frames = link.frames ++ sent := by
  induction h with
  | nil link => simp
  | cons _ ih =>
      rw [ih, frames_transmit, List.append_assoc, List.singleton_append]

/-- What none of the frames changes about a card is the same after them. A
frame that does not get to the card changes nothing. -/
theorem keeps (look : σ → β) (h : Delivered sent link after)
    (hkeep : ∀ frame ∈ sent, ∀ card : σ,
      look (Transport.transmit frame card).2 = look card) :
    look after.card = look link.card := by
  induction h with
  | nil link => rfl
  | @cons frame rest link after _ ih =>
      simp only [List.forall_mem_cons] at hkeep
      rw [ih hkeep.2]
      unfold Link.transmit
      cases link.lifetime with
      | zero => rfl
      | succ n => exact hkeep.1 link.card

end Delivered

-- ================================================================ blocks

/-- Wherever the work ends, the link is as its frames left it. -/
def Delivers (x : Exchange σ α) : Prop :=
  ∀ link, ∃ sent, Delivered sent link (x.run.run link).2

namespace Delivers

variable {x : Exchange σ α} {f : α → Exchange σ β}

theorem pure (a : α) : Delivers (Pure.pure a : Exchange σ α) :=
  fun link => ⟨[], .nil link⟩

theorem throw (e : Error) :
    Delivers (MonadExcept.throw e : Exchange σ α) :=
  fun link => ⟨[], .nil link⟩

theorem lift (r : Except Error α) : Delivers (liftM r : Exchange σ α) := by
  intro link
  rw [run_lift]
  exact ⟨[], .nil link⟩

/-- Work in two parts delivers if both parts do, whatever the first
leaves. -/
theorem bind (hx : Delivers x) (hf : ∀ a, Delivers (f a)) :
    Delivers (x >>= f) := by
  intro link
  obtain ⟨first, hfirst⟩ := hx link
  rcases hrun : x.run.run link with ⟨e | a, mid⟩
  · rw [hrun] at hfirst
    rw [run_bind_error hrun]
    exact ⟨first, hfirst⟩
  · rw [hrun] at hfirst
    obtain ⟨rest, hrest⟩ := hf a mid
    rw [run_bind_ok hrun]
    exact ⟨first ++ rest, hfirst.append hrest⟩

end Delivers

/-- A single frame is delivered once. -/
theorem exchange_delivers (frame : Bytes) :
    Delivers (exchange frame : Exchange σ Response) := by
  intro link
  refine ⟨[frame], .cons ?_⟩
  rw [exchange_run]
  rcases link.transmit frame with ⟨cause | answer, after⟩ <;> exact .nil _

/-- So everything that is composed of single frames delivers. -/
theorem delivers_composed :
    Composed fun α (x : Exchange σ α) => Delivers x where
  pure := .pure
  get link := ⟨[], .nil link⟩
  throw _ _ _ := .throw _
  encode _ _ := .lift _
  exchange := exchange_delivers
  bind := .bind

-- =============================================================== requests

namespace Terminal

/-- What goes over a secure channel is delivered, also where its round
fails. -/
theorem delivered_secured (channel : Scp03.SecureChannel) (c : Command)
    (link : Link σ) :
    ∃ sent, Delivered sent link (channel.send true c link).2 := by
  cases hchain : channel.chain with
  | none =>
      unfold Scp03.SecureChannel.send
      rw [hchain]
      exact ⟨[], .nil link⟩
  | some chain =>
      by_cases hlast : chain.counter = 0xFFFFFFFF
      · rw [Scp03.send_exhausted hchain hlast]
        exact ⟨[], .nil link⟩
      · rw [Scp03.send_link hchain fun _ => hlast]
        exact delivers_composed.send _ _ link

/-- So is what a terminal transmits, whichever messaging it uses. -/
theorem delivered_transmit (c : Command) (t : Terminal σ) :
    ∃ sent, Delivered sent t.link ((transmit c).run.run t).2.link := by
  obtain ⟨link, messaging⟩ := t
  cases messaging with
  | plain framing => exact delivers_composed.send framing c link
  | secured channel => exact delivered_secured channel c link

/-- The link is left as the frames of the requests leave it. -/
theorem Asked.delivered {asked : List Request} {t after : Terminal σ}
    (h : Asked asked t after) :
    Delivered (asked.flatMap Request.frames) t.link after.link := by
  induction h with
  | nil t => exact .nil t.link
  | @cons request rest t mid after hrun hframes _ ih =>
      obtain ⟨sent, hsent⟩ := delivered_transmit request.command t
      rw [hrun] at hsent
      obtain rfl : sent = request.frames :=
        List.append_cancel_left (hsent.frames.symm.trans hframes)
      exact hsent.append ih

end Terminal

end SmartCard
