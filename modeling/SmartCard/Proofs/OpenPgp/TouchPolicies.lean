/-
Touch policies that are fixed. A session asks for the policy of a slot
before it writes another, and writes only where the answer leaves no doubt
that the policy may be changed: the card knows no policy for the slot, or it
tells one that is not fixed (`Setting`). Of a card nothing is known but its
answers; but one that tells its policies as they are keeps the fixed ones,
whatever policies are set afterwards (`setAll_keeps`).

# What is asked of a card

`KeepsPolicies` is about what a card tells when it is asked for a policy, and
about the frames that leave a policy as it is: all but those that write the
object of the slot. How commands are put into frames does not matter.
-/
import SmartCard.OpenPgp.Session.Pins
import SmartCard.Proofs.Deliveries
import SmartCard.Proofs.Failures
import SmartCard.Proofs.OpenPgp.LateRefusals

namespace SmartCard.OpenPgp.Session

open Terminal (Request Asked)

-- ============================================================== versions

/-- The version lets the policy be set: it has touch policies, it has the
slot, and it has touches that last if that is what is asked for. -/
structure Admits (v : Version) (slot : Slot) (policy : TouchPolicy) :
    Prop where
  policies : v.isAtLeast ⟨4, 2, 0⟩ = true
  attestation : slot = .att → v.isAtLeast ⟨5, 2, 1⟩ = true
  cached : policy.isCached = true → v.isAtLeast ⟨5, 2, 1⟩ = true

variable {σ : Type} [Transport σ] {s : Session σ} {slot : Slot}
  {policy : TouchPolicy}

/-- What is left of setting a policy when the version lets it be set. -/
def replacePolicy (slot : Slot) (policy : TouchPolicy) : Activity σ Unit := do
  let current ← touchPolicy slot
  if current.isFixed then throw (.invalidState .fixedTouchPolicy)
  putData slot.touchPolicy policy.bytes

/-- Where the firmware admits the policy, the rest is the replacement. -/
theorem setTouchPolicy_admitted (h : Admits s.version slot policy) :
    (setTouchPolicy slot policy).run.run s
      = (replacePolicy slot policy).run.run s := by
  have hpolicies : Features.touchPolicy.isSupportedBy s.version = true :=
    h.policies
  unfold setTouchPolicy
  rw [run_bind_ok (run_require_met hpolicies)]
  exact (run_require_if_met h.attestation).trans
    (run_require_if_met h.cached)

/-- Otherwise nothing is sent and nothing of the session changes. -/
theorem setTouchPolicy_unsupported (h : ¬ Admits s.version slot policy) :
    ∃ fault, (setTouchPolicy slot policy).run.run s
      = (.error (.card (.unsupported fault)), s) := by
  unfold setTouchPolicy
  by_cases hpolicies : Features.touchPolicy.isSupportedBy s.version = true
  · rw [run_bind_ok (run_require_met hpolicies)]
    by_cases hattestation : slot = .att →
        Features.attestation.isSupportedBy s.version = true
    · have hcached : ¬ (policy.isCached = true →
          Features.cachedTouch.isSupportedBy s.version = true) :=
        fun hcached => h ⟨hpolicies, hattestation, hcached⟩
      obtain ⟨hneeds, hno⟩ := Classical.not_imp.mp hcached
      obtain ⟨fault, hfault⟩ := run_require_if_unmet hneeds hno
      exact ⟨fault, (run_require_if_met hattestation).trans hfault⟩
    · obtain ⟨hneeds, hno⟩ := Classical.not_imp.mp hattestation
      exact run_require_if_unmet hneeds hno
  · obtain ⟨fault, hfault⟩ := run_require_unmet hpolicies
    exact ⟨fault, run_bind_error hfault⟩

-- =============================================================== reading

/-- The card tells that the policy may be changed: it knows of no policy, or
of one that is not fixed. -/
def Loose (r : Response) : Prop :=
  r.status = .incorrectParameters
    ∨ r.status = .success
      ∧ r.payload.head? ∈ [some 0x00, some 0x01, some 0x03]

/-- The card tells that the policy is fixed. -/
def Locked (r : Response) : Prop :=
  r.status = .success ∧ r.payload.head? ∈ [some 0x02, some 0x04]

/-- The policy in a data object. -/
def policyIn : Bytes → Except Error TouchPolicy
  | [] => .error (.invalidData .emptyTouchPolicy)
  | first :: _ => (TouchPolicy.ofOctet first).mapError Error.invalidData

/-- Every octet is a policy that may be changed, a fixed one, or no
policy. -/
theorem ofOctet_told (x : UInt8) :
    (∃ p, TouchPolicy.ofOctet x = .ok p ∧ p.isFixed = false
        ∧ x ∈ [0x00, 0x01, 0x03])
      ∨ (∃ p, TouchPolicy.ofOctet x = .ok p ∧ p.isFixed = true
        ∧ x ∈ [0x02, 0x04])
      ∨ ∃ fault, TouchPolicy.ofOctet x = .error fault
        ∧ x ∉ [0x00, 0x01, 0x03] ∧ x ∉ [0x02, 0x04] := by
  by_cases h0 : x = 0
  · subst h0
    exact .inl ⟨.off, rfl, rfl, by decide⟩
  by_cases h1 : x = 1
  · subst h1
    exact .inl ⟨.on, rfl, rfl, by decide⟩
  by_cases h2 : x = 2
  · subst h2
    exact .inr (.inl ⟨.fixed, rfl, rfl, by decide⟩)
  by_cases h3 : x = 3
  · subst h3
    exact .inl ⟨.cached, rfl, rfl, by decide⟩
  by_cases h4 : x = 4
  · subst h4
    exact .inr (.inl ⟨.cachedFixed, rfl, rfl, by decide⟩)
  refine .inr (.inr ⟨.unknownTouchPolicy, ?_, ?_, ?_⟩)
  · simp [TouchPolicy.ofOctet, h0, h1, h2, h3, h4]
  · simp [h0, h1, h3]
  · simp [h2, h4]

/-- An answer tells a policy that may be changed, or one that is fixed, or
none. -/
theorem policyIn_told {r : Response} (hdone : r.status = .success) :
    (∃ p, policyIn r.payload = .ok p ∧ p.isFixed = false ∧ Loose r)
      ∨ (∃ p, policyIn r.payload = .ok p ∧ p.isFixed = true ∧ Locked r)
      ∨ ∃ e, policyIn r.payload = .error e ∧ ¬ Loose r ∧ ¬ Locked r := by
  have hknown : StatusWord.success ≠ .incorrectParameters := by decide
  cases hpayload : r.payload with
  | nil =>
      refine .inr (.inr ⟨_, rfl, ?_, ?_⟩)
      · simp [Loose, hdone, hknown, hpayload]
      · simp [Locked, hpayload]
  | cons x more =>
      have hloose : Loose r ↔ x ∈ [0x00, 0x01, 0x03] := by
        simp [Loose, hdone, hknown, hpayload]
      have hlocked : Locked r ↔ x ∈ [0x02, 0x04] := by
        simp [Locked, hdone, hpayload]
      rw [policyIn, hloose, hlocked]
      rcases ofOctet_told x with ⟨p, hp, hfree, hx⟩ | ⟨p, hp, hfixed, hx⟩
        | ⟨fault, hfault, hx, hx'⟩
      · exact .inl ⟨p, by rw [hp]; rfl, hfree, hx⟩
      · exact .inr (.inl ⟨p, by rw [hp]; rfl, hfixed, hx⟩)
      · exact .inr (.inr ⟨_, by rw [hfault]; rfl, hx, hx'⟩)

/-- A policy is read out of the first octet of its object. -/
theorem touchPolicy_told {content : Bytes} {mid : Session σ}
    (h : (send (getDataCommand slot.touchPolicy)).run.run s
      = (.ok content, mid)) :
    (touchPolicy slot).run.run s = (policyIn content, mid) := by
  have hsome : (some <$> getData slot.touchPolicy : Activity σ _).run.run s
      = (.ok (some content), mid) := by
    rw [run_map]
    exact congrArg (fun out => (out.1.map some, out.2)) h
  unfold touchPolicy
  rw [run_bind_ok (run_catch_ok hsome)]
  cases content with
  | nil => rfl
  | cons x more => exact run_wellFormed _ mid

/-- A card that knows of no policy has it off. Any other failure is
reported. -/
theorem touchPolicy_failed {e : Error} {mid : Session σ}
    (h : (send (getDataCommand slot.touchPolicy)).run.run s
      = (.error e, mid)) :
    (touchPolicy slot).run.run s
      = (if e.statusWord? = some .incorrectParameters then .ok .off
          else .error e, mid) := by
  have hfailed : (some <$> getData slot.touchPolicy : Activity σ _).run.run s
      = (.error e, mid) := by
    rw [run_map]
    exact congrArg (fun out => (out.1.map some, out.2)) h
  unfold touchPolicy
  rw [ExceptT.run_bind, StateT.run_bind, run_catch_error hfailed]
  split <;> rfl

/-- What comes of asking for the policy of a slot. -/
inductive PolicyRead (s : Session σ) (slot : Slot) :
    List Request → Except Error TouchPolicy → Prop
  | closed : s.stage = .closed →
      PolicyRead s slot [] (.error (.invalidState .closed))
  | loose {reading : Request} {r : Response} {p : TouchPolicy} :
      s.stage ≠ .closed →
      reading.command = getDataCommand slot.touchPolicy →
      reading.answer = .ok r → Loose r → p.isFixed = false →
      PolicyRead s slot [reading] (.ok p)
  | locked {reading : Request} {r : Response} {p : TouchPolicy} :
      s.stage ≠ .closed →
      reading.command = getDataCommand slot.touchPolicy →
      reading.answer = .ok r → Locked r → p.isFixed = true →
      PolicyRead s slot [reading] (.ok p)
  | unclear {reading : Request} {e : Error} :
      s.stage ≠ .closed →
      reading.command = getDataCommand slot.touchPolicy →
      (∀ r, reading.answer = .ok r → ¬ Loose r ∧ ¬ Locked r) →
      PolicyRead s slot [reading] (.error e)

omit [Transport σ] in
/-- An answer that tells neither kind of policy is an error. -/
theorem PolicyRead.untold {reading : Request} {r : Response} {e : Error}
    (hopen : s.stage ≠ .closed)
    (hcommand : reading.command = getDataCommand slot.touchPolicy)
    (hanswer : reading.answer = .ok r) (hneither : ¬ Loose r ∧ ¬ Locked r) :
    PolicyRead s slot [reading] (.error e) := by
  refine .unclear hopen hcommand fun other hother => ?_
  obtain rfl := Except.ok.inj (hanswer.symm.trans hother)
  exact hneither

/-- Every reading of a policy is one of those that `PolicyRead` lists. -/
theorem touchPolicy_ran (slot : Slot) (s : Session σ) :
    ∃ asked result t, Ran (touchPolicy slot) s asked result t
      ∧ PolicyRead s slot asked result := by
  obtain ⟨asked, result, t, hran, hsent⟩ :=
    send_ran (getDataCommand slot.touchPolicy) s
  cases hsent with
  | closed hstage =>
      exact ⟨[], _, t, ⟨touchPolicy_failed hran.run, hran.asked⟩,
        .closed hstage⟩
  | @refused reading cause hopen hcommand hcause =>
      refine ⟨[reading], _, t, ⟨touchPolicy_failed hran.run, hran.asked⟩, ?_⟩
      rcases hran.asked.payload_refused hcause with
        ⟨r, hanswer, hrefused, rfl⟩ | ⟨hanswer, hstatusless⟩
      · have hword : (Error.card (.status r.status)).statusWord?
            = some r.status := rfl
        rw [hword]
        by_cases hunknown : r.status = .incorrectParameters
        · rw [if_pos (by rw [hunknown])]
          exact .loose hopen hcommand hanswer (.inl hunknown) rfl
        · rw [if_neg (by simpa using hunknown)]
          exact .untold hopen hcommand hanswer
            ⟨by simp [Loose, hunknown, hrefused], by simp [Locked, hrefused]⟩
      · have hword : (Error.card cause).statusWord? = none := hstatusless
        rw [hword, if_neg (by simp)]
        refine .unclear hopen hcommand fun r hr => ?_
        cases hr.symm.trans hanswer
  | @done reading payload hopen hcommand hpayload =>
      refine ⟨[reading], _, t, ⟨touchPolicy_told hran.run, hran.asked⟩, ?_⟩
      obtain ⟨r, hanswer, hdone⟩ := Request.succeeded_of_payload hpayload
      rw [Request.payload_of_answered hanswer] at hpayload
      obtain ⟨-, rfl⟩ := (result_ok_iff r payload).mp hpayload
      rcases policyIn_told hdone with ⟨p, hp, hfree, hloose⟩
        | ⟨p, hp, hfixed, hlocked⟩ | ⟨e, he, hneither⟩
      · rw [hp]
        exact .loose hopen hcommand hanswer hloose hfree
      · rw [hp]
        exact .locked hopen hcommand hanswer hlocked hfixed
      · rw [he]
        exact .untold hopen hcommand hanswer hneither

-- =============================================================== setting

/-- The ways in which setting a policy goes, one for each state of affairs.
Only where the card has just told that the policy may be changed is anything
written, and then it is the object of the slot, once. -/
inductive Setting (s : Session σ) (slot : Slot) (policy : TouchPolicy) :
    List Request → Except Error Unit → Prop
  | unsupported {fault : SmartCard.UnsupportedFault} :
      ¬ Admits s.version slot policy →
      Setting s slot policy [] (.error (.card (.unsupported fault)))
  | closed : Admits s.version slot policy → s.stage = .closed →
      Setting s slot policy [] (.error (.invalidState .closed))
  | fixed {reading : Request} {r : Response} :
      Admits s.version slot policy → s.stage ≠ .closed →
      reading.command = getDataCommand slot.touchPolicy →
      reading.answer = .ok r → Locked r →
      Setting s slot policy [reading]
        (.error (.invalidState .fixedTouchPolicy))
  | unclear {reading : Request} {e : Error} :
      Admits s.version slot policy → s.stage ≠ .closed →
      reading.command = getDataCommand slot.touchPolicy →
      (∀ r, reading.answer = .ok r → ¬ Loose r ∧ ¬ Locked r) →
      Setting s slot policy [reading] (.error e)
  | written {reading writing : Request} {r : Response}
      {result : Except Error Unit} :
      Admits s.version slot policy → s.stage ≠ .closed →
      reading.command = getDataCommand slot.touchPolicy →
      reading.answer = .ok r → Loose r →
      writing.command = putDataCommand slot.touchPolicy [policy.octet, 0x20] →
      (result = .ok () ↔ writing.Succeeded) →
      Setting s slot policy [reading, writing] result

/-- A replacement of an admitted policy is one of the courses that `Setting`
lists. -/
theorem replacePolicy_ran (hadmits : Admits s.version slot policy) :
    ∃ asked result t, Ran (replacePolicy slot policy) s asked result t
      ∧ Setting s slot policy asked result := by
  obtain ⟨asked, result, mid, hran, hread⟩ := touchPolicy_ran slot s
  cases hread with
  | closed hstage => exact ⟨[], _, mid, hran.fails, .closed hadmits hstage⟩
  | unclear hopen hcommand hneither =>
      exact ⟨_, _, mid, hran.fails, .unclear hadmits hopen hcommand hneither⟩
  | @locked reading r p hopen hcommand hanswer hlocked hfixed =>
      refine ⟨[reading], _, mid, hran.ends ?_,
        .fixed hadmits hopen hcommand hanswer hlocked⟩
      simp only [hfixed, if_true]
      rfl
  | @loose reading r p hopen hcommand hanswer hloose hfree =>
      obtain ⟨later, sent, t, hput, hsent⟩ := perform_ran
        (putDataCommand slot.touchPolicy policy.bytes)
        { s with terminal := mid }
      have hran : Ran (replacePolicy slot policy) s ([reading] ++ later)
          (sent.map fun _ => ()) t := by
        refine hran.bind ?_
        simp only [hfree]
        exact hput
      refine ⟨_, _, t, hran, ?_⟩
      cases hsent with
      | closed hstage => exact absurd hstage hopen
      | @refused writing cause _ hwrites hcause =>
          have hfailed : ¬ writing.Succeeded := fun hdone => by
            obtain ⟨payload, hpayload⟩ := Request.payload_of_succeeded hdone
            cases hcause.symm.trans hpayload
          refine .written hadmits hopen hcommand hanswer hloose hwrites ?_
          exact ⟨nofun, fun hdone => absurd hdone hfailed⟩
      | done _ hwrites hpayload =>
          refine .written hadmits hopen hcommand hanswer hloose hwrites ?_
          exact ⟨fun _ => Request.succeeded_of_payload hpayload, fun _ => rfl⟩

/-- So is every call, admitted or not. -/
theorem setTouchPolicy_ran (slot : Slot) (policy : TouchPolicy)
    (s : Session σ) :
    ∃ asked result t, Ran (setTouchPolicy slot policy) s asked result t
      ∧ Setting s slot policy asked result := by
  by_cases hadmits : Admits s.version slot policy
  · obtain ⟨asked, result, t, hran, hsetting⟩ := replacePolicy_ran hadmits
    exact ⟨asked, result, t,
      .congr (setTouchPolicy_admitted hadmits) hran, hsetting⟩
  · obtain ⟨fault, hfault⟩ := setTouchPolicy_unsupported hadmits
    exact ⟨[], _, s.terminal, .none hfault, .unsupported hadmits⟩

-- ================================================================= a card

/-- The frame writes the object with the policy of the slot. -/
def WritesPolicy (slot : Slot) (frame : Bytes) : Prop :=
  (frame.drop 1).take 3 = [0xDA, 0x00, slot.touchPolicy.toUInt8]

/-- From the state of the terminal on, the card tells its policies as they
are, and no policy changes but by a frame that writes it. -/
structure KeepsPolicies (policies : σ → Slot → TouchPolicy)
    (start : Terminal σ) : Prop where
  unknown : ∀ {earlier t after r slot}, Asked earlier start t →
    (Terminal.transmit (getDataCommand slot.touchPolicy)).run.run t
      = (.ok r, after) →
    r.status = .incorrectParameters → policies after.link.card slot = .off
  told : ∀ {earlier t after r slot}, Asked earlier start t →
    (Terminal.transmit (getDataCommand slot.touchPolicy)).run.run t
      = (.ok r, after) →
    r.status = .success → ∀ x, r.payload.head? = some x →
      (policies after.link.card slot).octet = x
  kept : ∀ {frame slot}, ¬ WritesPolicy slot frame → ∀ card,
    policies (Transport.transmit frame card).2 slot = policies card slot

/-- The command writes the object with the policy of the slot. -/
def WritesTo (slot : Slot) (c : Command) : Prop :=
  [c.ins, c.p1, c.p2] = [0xDA, 0x00, slot.touchPolicy.toUInt8]

theorem writesTo_put_iff (slot other : Slot) (content : Bytes) :
    WritesTo slot (putDataCommand other.touchPolicy content)
      ↔ slot = other := by
  show [(0xDA : UInt8), (other.touchPolicy >>> 8).toUInt8,
    other.touchPolicy.toUInt8] = [0xDA, 0x00, slot.touchPolicy.toUInt8] ↔ _
  cases slot <;> cases other <;> decide

theorem not_writesTo_get (slot other : Slot) :
    ¬ WritesTo slot (getDataCommand other.touchPolicy) := by
  intro h
  cases (List.cons.inj h).1

/-- A frame of a command writes a policy only if the command does. -/
theorem writesTo_of_shows {c : Command} {frame : Bytes}
    (hshows : Terminal.Shows c frame) (hwrites : WritesPolicy slot frame) :
    WritesTo slot c := by
  unfold WritesPolicy at hwrites
  rcases hshows with hshown | ⟨ins, count, rfl⟩
  · exact hshown.symm.trans hwrites
  · -- what asks for more of an answer has no parameters
    have hnothing : ((Framing.followUpFrame ins count).drop 1).take 3
        = [ins, 0x00, 0x00] := rfl
    have hlast := (List.cons.inj (List.cons.inj
      (List.cons.inj (hnothing.symm.trans hwrites)).2).2).1
    cases slot <;> cases hlast

/-- No fixed policy has the octet of a changeable one. -/
theorem fixed_octet {p : TouchPolicy} (h : p.isFixed = true) :
    p.octet ∉ [0x00, 0x01, 0x03] := by
  cases p with
  | fixed | cachedFixed => decide
  | off | on | cached => cases h

namespace KeepsPolicies

variable {policies : σ → Slot → TouchPolicy} {start t after : Terminal σ}
  {earlier asked : List Request}

/-- Requests that do not write a policy leave it as it is. -/
theorem unwritten (h : KeepsPolicies policies start)
    (hasked : Asked asked t after)
    (hothers : ∀ request ∈ asked, ¬ WritesTo slot request.command) :
    policies after.link.card slot = policies t.link.card slot := by
  refine hasked.delivered.keeps (fun card => policies card slot) ?_
  intro frame hframe card
  obtain ⟨request, hmem, hframe⟩ := List.mem_flatMap.mp hframe
  exact h.kept (fun hwrites => hothers request hmem
    (writesTo_of_shows (hasked.shown request hmem frame hframe) hwrites)) card

/-- Of a policy that is fixed the card does not tell that it may be
changed. -/
theorem not_loose (h : KeepsPolicies policies start)
    (hearlier : Asked earlier start t) {r : Response}
    (hrun : (Terminal.transmit (getDataCommand slot.touchPolicy)).run.run t
      = (.ok r, after))
    (hfixed : (policies after.link.card slot).isFixed = true) :
    ¬ Loose r := by
  rintro (hunknown | ⟨hdone, hfirst⟩)
  · rw [h.unknown hearlier hrun hunknown] at hfixed
    cases hfixed
  · cases hhead : r.payload.head? with
    | none => simp [hhead] at hfirst
    | some x =>
        have hoctet := h.told hearlier hrun hdone x hhead
        rw [hhead, ← hoctet] at hfirst
        exact fixed_octet hfixed (by simpa using hfirst)

variable {s : Session σ} {result : Except Error Unit}

/-- Setting a policy, of whatever slot, leaves a fixed one as it is. -/
theorem setting (h : KeepsPolicies policies start)
    (hearlier : Asked earlier start s.terminal)
    {other : Slot} {policy : TouchPolicy}
    (hasked : Asked asked s.terminal t)
    (hsetting : Setting s other policy asked result)
    (hfixed : (policies s.terminal.link.card slot).isFixed = true) :
    policies t.link.card slot = policies s.terminal.link.card slot := by
  -- Asking writes nothing, so it is left to look at what is written.
  cases hsetting with
  | unsupported _ => exact h.unwritten hasked (by simp)
  | closed _ _ => exact h.unwritten hasked (by simp)
  | fixed _ _ hcommand _ _ =>
      exact h.unwritten hasked (by simp [hcommand, not_writesTo_get])
  | unclear _ _ hcommand _ =>
      exact h.unwritten hasked (by simp [hcommand, not_writesTo_get])
  | @written reading writing r _ _ _ hcommand hanswer hloose hwrites _ =>
      by_cases hslot : slot = other
      · subst hslot
        have hrow : Asked ([reading] ++ [writing]) s.terminal t := hasked
        obtain ⟨mid, hread, -⟩ := hrow.split
        have hmid : policies mid.link.card slot
            = policies s.terminal.link.card slot :=
          h.unwritten hread (by simp [hcommand, not_writesTo_get])
        cases hread with
        | cons hrun _ hrest =>
            cases hrest
            rw [hcommand, hanswer] at hrun
            exact absurd hloose
              (h.not_loose hearlier hrun (by rw [hmid, hfixed]))
      · exact h.unwritten hasked
          (by simp [hcommand, hwrites, not_writesTo_get, writesTo_put_iff, hslot])

end KeepsPolicies

-- ================================================================== runs

/-- The session after policies were set one after the other, each for a slot,
whatever came of it. -/
def setAll (calls : List (Slot × TouchPolicy)) (s : Session σ) : Session σ :=
  calls.foldl (fun s call => ((setTouchPolicy call.1 call.2).run.run s).2) s

theorem setAll_append (calls later : List (Slot × TouchPolicy))
    (s : Session σ) : setAll (calls ++ later) s = setAll later (setAll calls s) :=
  List.foldl_append

/-- All that the calls send is requests on the one terminal. -/
theorem setAll_asked (calls : List (Slot × TouchPolicy)) (s : Session σ) :
    ∃ asked, Asked asked s.terminal (setAll calls s).terminal := by
  induction calls generalizing s with
  | nil => exact ⟨[], .nil s.terminal⟩
  | cons call calls ih =>
      obtain ⟨first, result, t, hran, -⟩ := setTouchPolicy_ran call.1 call.2 s
      obtain ⟨rest, hrest⟩ := ih { s with terminal := t }
      refine ⟨first ++ rest, hran.asked.append ?_⟩
      rw [setAll, List.foldl_cons, hran.run]
      exact hrest

/-- A policy that the card holds fixed is the same after any calls. By
induction over the calls, with `KeepsPolicies.setting` for the single
one. -/
theorem setAll_keeps {policies : σ → Slot → TouchPolicy}
    {start : Terminal σ} {earlier : List Request}
    (h : KeepsPolicies policies start)
    (hearlier : Asked earlier start s.terminal)
    (hfixed : (policies s.terminal.link.card slot).isFixed = true)
    (calls : List (Slot × TouchPolicy)) :
    policies (setAll calls s).terminal.link.card slot
      = policies s.terminal.link.card slot := by
  induction calls generalizing s earlier with
  | nil => rfl
  | cons call calls ih =>
      obtain ⟨asked, result, t, hran, hsetting⟩ :=
        setTouchPolicy_ran call.1 call.2 s
      have hstep := h.setting hearlier hran.asked hsetting hfixed
      have hrest := ih (s := { s with terminal := t })
        (hearlier.append hran.asked) (by rw [hstep, hfixed])
      rw [setAll, List.foldl_cons, hran.run]
      exact hrest.trans hstep

/-- Setting the policy of a slot writes its object, and that once, only where
the version lets the policy be set and the card has told by then that the
policy may be changed. Refused for the version it asks for nothing; a policy
that is told to be fixed is an invalid state; and in all other cases it fails
without writing. So on a card that tells its policies as they are and changes
them only when they are written, a policy that is fixed at some point stays,
whatever policies are set afterwards. -/
theorem fixed_never_overwritten (s : Session σ) :
    (∀ slot policy, ∃ asked result t,
        Ran (setTouchPolicy slot policy) s asked result t
          ∧ t.link.frames
            = s.terminal.link.frames ++ asked.flatMap Request.frames
          ∧ (∀ request ∈ asked, ∀ frame ∈ request.frames,
            Terminal.Shows request.command frame)
          ∧ Setting s slot policy asked result)
      ∧ ∀ policies, KeepsPolicies policies s.terminal →
        ∀ before later slot,
          (policies (setAll before s).terminal.link.card slot).isFixed
            = true →
          policies (setAll (before ++ later) s).terminal.link.card slot
            = policies (setAll before s).terminal.link.card slot := by
  refine ⟨fun slot policy => ?_, ?_⟩
  · obtain ⟨asked, result, t, hran, hsetting⟩ :=
      setTouchPolicy_ran slot policy s
    exact ⟨asked, result, t, hran, hran.asked.frames, hran.asked.shown,
      hsetting⟩
  · intro policies hkeeps before later slot hfixed
    obtain ⟨asked, hasked⟩ := setAll_asked before s
    rw [setAll_append]
    exact setAll_keeps hkeeps hasked hfixed later

-- ========================================================== a truthful card

/-- A card with a touch policy for each slot, which anyone may change. -/
structure TouchCard where
  policies : Slot → TouchPolicy

namespace TouchCard

/-- The slot with this object. -/
def slotOf? (object : UInt8) : Option Slot :=
  [Slot.sig, .dec, .aut, .att].find? (·.touchPolicy.toUInt8 == object)

theorem object_of_slotOf? {object : UInt8} {slot : Slot}
    (h : slotOf? object = some slot) :
    object = slot.touchPolicy.toUInt8 := by
  unfold slotOf? at h
  have hfound := List.find?_some h
  exact (eq_of_beq hfound).symm

/-- Take what is written for a slot, if it is a policy. -/
def write (card : TouchCard) (object octet : UInt8) : TouchCard :=
  match slotOf? object, TouchPolicy.ofOctet octet with
  | some slot, .ok p => ⟨fun other => if other = slot then p else card.policies other⟩
  | _, _ => card

instance : Transport TouchCard where
  transmit frame card := match frame with
    | [0x00, 0xCA, 0x00, object] =>
      match slotOf? object with
      | some slot => (.ok [(card.policies slot).octet, 0x20, 0x90, 0x00], card)
      | none => (.ok [0x6A, 0x88], card)
    | [0x00, 0xDA, 0x00, object, 0x02, octet, 0x20] =>
      (.ok [0x90, 0x00], card.write object octet)
    | _ => (.ok [0x6D, 0x00], card)
  maxFrame _ := none
  extendedLength _ := false
  connected _ := true
  close card := (.ok (), card)

/-- A write to another object leaves a slot's policy alone. -/
theorem write_other (card : TouchCard) {object : UInt8} {slot : Slot}
    (h : object ≠ slot.touchPolicy.toUInt8) (octet : UInt8) :
    (card.write object octet).policies slot = card.policies slot := by
  unfold write
  split
  next other p hother _ =>
    have hne : slot ≠ other := by
      rintro rfl
      exact h (object_of_slotOf? hother)
    exact if_neg hne
  next => rfl

/-- So does every frame that is no write to the slot's policy. -/
theorem transmit_other {frame : Bytes} {slot : Slot}
    (h : ¬ WritesPolicy slot frame) (card : TouchCard) :
    (Transport.transmit frame card).2.policies slot = card.policies slot := by
  simp only [Transport.transmit]
  split
  · split <;> rfl
  next object octet =>
    refine write_other card (fun hobject => h ?_) octet
    rw [hobject]
    rfl
  · rfl

/-- The limit does not depend on the card. -/
theorem limit_plain (link : Link TouchCard) :
    Framing.limitOver {} link = 1390 := rfl

/-- A policy is told as it is. -/
theorem read_run (slot : Slot) (card : TouchCard) (n : Nat)
    (journal : List Bytes) :
    ∃ after, (Terminal.transmit (getDataCommand slot.touchPolicy)).run.run
        ⟨⟨card, n + 1, journal⟩, .plain {}⟩
      = (.ok ⟨[(card.policies slot).octet, 0x20], StatusWord.success⟩, after)
        ∧ after.link.card = card := by
  rw [Terminal.transmit_plain, Framing.send_run, limit_plain]
  cases slot <;> exact ⟨_, rfl, rfl⟩

/-- Over a link that has ended no policy is read. -/
theorem read_ended (slot : Slot) (card : TouchCard) (journal : List Bytes) :
    ∃ after, (Terminal.transmit (getDataCommand slot.touchPolicy)).run.run
        ⟨⟨card, 0, journal⟩, .plain {}⟩
      = (.error (.transport .transmission), after) := by
  rw [Terminal.transmit_plain, Framing.send_run, limit_plain]
  cases slot <;> exact ⟨_, rfl⟩

/-- What is answered tells the policy. -/
theorem read_answer {slot : Slot} {t after : Terminal TouchCard}
    {r : Response} (hplain : t.messaging = .plain {})
    (hrun : (Terminal.transmit (getDataCommand slot.touchPolicy)).run.run t
      = (.ok r, after)) :
    r = ⟨[(after.link.card.policies slot).octet, 0x20], StatusWord.success⟩ := by
  obtain ⟨⟨card, lifetime, journal⟩, messaging⟩ := t
  obtain rfl : messaging = .plain {} := hplain
  cases lifetime with
  | zero =>
      obtain ⟨other, hended⟩ := read_ended slot card journal
      cases hended.symm.trans hrun
  | succ n =>
      obtain ⟨other, hread, hcard⟩ := read_run slot card n journal
      obtain ⟨hr, rfl⟩ := Prod.mk.inj (hread.symm.trans hrun)
      rw [hcard]
      exact (Except.ok.inj hr).symm

/-- In the clear, the card is as `KeepsPolicies` asks. -/
theorem keeps_policies {start : Terminal TouchCard}
    (hplain : start.messaging = .plain {}) :
    KeepsPolicies TouchCard.policies start where
  unknown hearlier hrun hunknown := by
    rw [read_answer (hearlier.plain hplain) hrun] at hunknown
    cases hunknown
  told hearlier hrun _ x hfirst := by
    rw [read_answer (hearlier.plain hplain) hrun] at hfirst
    exact Option.some.inj hfirst
  kept := transmit_other

end TouchCard

/-- A session with a card on which no policy is fixed yet. -/
def touchCard : Session TouchCard where
  terminal.link.card.policies _ := .off
  terminal.link.lifetime := 16
  version := ⟨5, 4, 3⟩
  data := (willingCard ⟨5, 4, 3⟩).data
  stage := .ready

/-- Once the policy of the signature key is fixed it can not be switched off,
while the policy of another key is set. -/
theorem touch_card_keeps_fixed :
    let first : List (Slot × TouchPolicy) := [(.sig, .fixed)]
    let later : List (Slot × TouchPolicy) := [(.sig, .off), (.dec, .cached)]
    let card := (setAll (first ++ later) touchCard).terminal.link.card
    card.policies .sig = .fixed ∧ card.policies .dec = .cached := by
  intro first later card
  have hsig : (setAll first touchCard).terminal.link.card.policies .sig
      = .fixed := by decide +kernel
  have hkeeps := (fixed_never_overwritten touchCard).2 TouchCard.policies
    (TouchCard.keeps_policies rfl) first later .sig (by rw [hsig]; rfl)
  exact ⟨hkeeps.trans hsig, by decide +kernel⟩

end SmartCard.OpenPgp.Session
