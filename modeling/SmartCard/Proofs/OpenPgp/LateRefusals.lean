/-
Refusals of the session itself that come too late. Most operations find out
first whether they can be carried out, and write afterwards. Two do not:
putting a key in gives the slot its algorithm before it looks at the parts
of the key, and deleting a key changes the algorithm before it finds out
whether it can be changed back. Where they refuse then, the slot is left
with the new algorithm, and the key that it held is gone.

# When it happens

Both are told by their requests. `LateFault` is the one course in which a
key that can not be sent is found out after the write, and `Stranded` the
one in which a slot stays switched. Apart from these, a refusal leaves the
data objects of the card alone (`putKey_untouched_unless_late`,
`deleteKey_untouched_unless_stranded`).
-/
import SmartCard.Card.Scripted
import SmartCard.Proofs.OpenPgp.KeyOperations

namespace SmartCard.OpenPgp.Session

open Terminal (Request)

variable {σ : Type}

/-- A command that writes a data object, in either form. -/
def PutsData (c : Command) : Prop :=
  c.ins = 0xDA ∨ c.ins = 0xDB

theorem putsData_put (object : ObjectId) (content : Bytes) :
    PutsData (putDataCommand object content) :=
  Or.inl rfl

theorem reads_not_puts {c : Command} {object : ObjectId}
    (h : c = getDataCommand object) : ¬ PutsData c := by
  have hins : c.ins = 0xCA := by rw [h]; rfl
  unfold PutsData
  rw [hins]
  decide

variable [Transport σ] {s : Session σ} {slot : Slot} {a : Attributes}

-- ========================================================== failed writing

/-- Where a slot is not given its algorithm, the card took nothing that was
written. -/
theorem Writing.untaken {asked : List Request} {e : Error}
    (h : Writing s slot a asked (.error e)) :
    ∀ request ∈ asked, request.Succeeded → ¬ PutsData request.command := by
  intro request hmem hdone
  cases h with
  | unlisted _ hwhy => exact reads_not_puts (hwhy.reads request hmem)
  | declined hwhy => exact reads_not_puts (hwhy.reads request hmem)
  | closed hlisted => exact reads_not_puts (hlisted.reads request hmem)
  | refused hlisted _ hcause =>
      rcases List.mem_append.mp hmem with hread | hlast
      · exact reads_not_puts (hlisted.reads request hread)
      · obtain rfl := List.mem_singleton.mp hlast
        obtain ⟨payload, hpayload⟩ :=
          Terminal.Request.payload_of_succeeded hdone
        cases hcause.symm.trans hpayload

/-- Where the reason is not the card's, nothing was written. -/
theorem Writing.unwritten {asked : List Request} {e : Error}
    (h : Writing s slot a asked (.error e))
    (hown : ∀ cause, e ≠ .card cause) :
    ∀ request ∈ asked,
      request.command = getDataCommand ObjectId.algorithmInformation := by
  cases h with
  | unlisted _ hwhy => exact hwhy.reads
  | declined hwhy => exact hwhy.reads
  | closed hlisted => exact hlisted.reads
  | refused _ _ _ => exact absurd rfl (hown _)

-- ========================================================= putting a key in

/-- The card took the algorithm of a key for the slot, and then the key can
not be put into a template. -/
structure LateFault (s : Session σ) (slot : Slot) (key : PrivateKey)
    (asked : List Request) : Prop where
  taken : ∃ a listing write,
    key.attributes slot (s.version.isBelow ⟨4, 0, 0⟩) = .ok a
      ∧ Listed s slot a listing ∧ asked = listing ++ [write]
      ∧ write.command = putDataCommand slot.attributes a.bytes
      ∧ write.Succeeded
  unfit : ∃ fault,
    KeyTemplate.ofKey slot (s.version.isBelow ⟨4, 0, 0⟩) key = .error fault

/-- A late fault is reported as invalid data. -/
theorem LateFault.result {key : PrivateKey} {asked : List Request}
    {result : Except Error Unit} (hlate : LateFault s slot key asked)
    (h : Putting s slot key asked result) :
    ∃ fault, result = .error (.invalidData fault) := by
  obtain ⟨⟨a, listing, write, ha, hlisted, hasked, hcommand, hdone⟩,
    fault, hfault⟩ := hlate
  cases h with
  | unreadable hkey => cases hkey.symm.trans ha
  | unfit _ _ _ => exact ⟨_, rfl⟩
  | given _ _ htemplate _ => cases htemplate.symm.trans hfault
  | unprepared _ hprep =>
      cases hprep with
      | unfit _ _ => exact absurd hasked (by simp)
      | unwritten _ hwriting =>
          have hput : PutsData write.command := hcommand ▸ putsData_put _ _
          exact absurd hput
            (hwriting.untaken write (by rw [hasked]; simp) hdone)

/-- Invalid data reported after a PUT DATA is a late fault. -/
theorem lateFault_of_put {key : PrivateKey} {asked : List Request}
    {fault : DataFault} {request : Request}
    (h : Putting s slot key asked (.error (.invalidData fault)))
    (hmem : request ∈ asked) (hputs : PutsData request.command) :
    LateFault s slot key asked := by
  generalize hresult : (Except.error (.invalidData fault)
    : Except Error Unit) = result at h
  cases h with
  | unreadable _ => cases hmem
  | unprepared _ hprep =>
      obtain rfl := Except.error.inj hresult
      cases hprep with
      | unwritten _ hwriting =>
          exact absurd hputs (reads_not_puts
            (hwriting.unwritten (fun _ => by simp) request hmem))
  | unfit ha hprepared htemplate =>
      cases hprepared with
      | fixed _ _ => cases hmem
      | written hlisted hcommand hdone =>
          exact ⟨⟨_, _, _, ha, hlisted, rfl, hcommand, hdone⟩, _, htemplate⟩
  | given _ _ _ hsent =>
      cases hsent with
      | closed _ => cases hresult
      | refused _ _ _ => cases hresult
      | done _ _ _ => cases hresult

/-- A key that is refused for its data leaves the data objects of the card
alone, except where the card has just taken the algorithm of the key and the
key then does not fit its template. -/
theorem putKey_untouched_unless_late (slot : Slot) (key : PrivateKey)
    (s : Session σ) :
    ∃ asked result t, Ran (putKey slot key) s asked result t
      ∧ t.link.frames
        = s.terminal.link.frames ++ asked.flatMap Request.frames
      ∧ (∀ request ∈ asked, ∀ frame ∈ request.frames,
        Terminal.Shows request.command frame)
      ∧ ((∀ fault, result = .error (.invalidData fault) →
          ∀ request ∈ asked, ¬ PutsData request.command)
        ↔ ¬ LateFault s slot key asked) := by
  obtain ⟨asked, result, t, hran, hputting⟩ := putKey_ran slot key s
  refine ⟨asked, result, t, hran, hran.asked.frames, hran.asked.shown,
    ?_, ?_⟩
  · intro hquiet hlate
    obtain ⟨fault, hresult⟩ := hlate.result hputting
    obtain ⟨a, listing, write, _, _, hasked, hcommand, _⟩ := hlate.taken
    exact hquiet fault hresult write (by rw [hasked]; simp)
      (hcommand ▸ putsData_put _ _)
  · rintro hnot fault rfl request hmem hputs
    exact hnot (lateFault_of_put hputting hmem hputs)

/-- A session with a card that can change its algorithms and answers 90 00
to everything. -/
def willingCard (version : Version) : Session ScriptedCard where
  terminal.link.card.script := .queue [[0x90, 0x00]]
  terminal.link.lifetime := 8
  version
  data.aid := aid
  data.capabilities.flags := Capability.changeableAttributes.mask
  data.capabilities.secureMessagingAlgorithm := 0
  data.capabilities.challengeLimit := 0
  data.capabilities.certificateLimit := 0
  data.capabilities.objectLimit := 0
  data.capabilities.pinBlock2 := false
  data.capabilities.securityEnvironment := false
  data.pinStatus := ⟨.once, ⟨127, 127, 127⟩, ⟨3, 0, 3⟩⟩
  data.objects := []
  stage := .ready

/-- A key without the parts for the Chinese remainder theorem, which old
cards need. -/
def plainKey : PrivateKey :=
  .rsa {
    modulus := List.replicate 256 0xFF
    exponent := [0x01, 0x00, 0x01]
    p := List.replicate 128 0xFF
    q := List.replicate 128 0xFF }

set_option maxRecDepth 2000 in
/-- A card of version 3.4.3 takes the algorithm of a key that is then refused
for its missing parts. -/
theorem putKey_writes_before_refusing :
    ¬ ∀ (s : Session ScriptedCard) (slot : Slot) (key : PrivateKey)
        (fault : DataFault) (after : Session ScriptedCard)
        (sent : List Bytes),
      (putKey slot key).run.run s = (.error (.invalidData fault), after) →
      after.terminal.link.frames = s.terminal.link.frames ++ sent →
      ∀ frame ∈ sent, frame[1]? ≠ some 0xDA ∧ frame[1]? ≠ some 0xDB := by
  intro h
  have hquiet := h (willingCard ⟨3, 4, 3⟩) .sig plainKey .missingCrtPart _
    [[0x00, 0xDA, 0x00, 0xC1, 0x06, 0x01, 0x08, 0x00, 0x00, 0x11, 0x03]]
    rfl rfl _ List.mem_cons_self
  exact hquiet.1 rfl

-- ========================================================= deleting a key

/-- Cards have no way to give the slot the algorithm: they can not change
algorithms, or the slot or the algorithm is not listed. -/
def Unsupported (s : Session σ) (slot : Slot) (a : Attributes) : Prop :=
  ¬ Changeable s ∨ ∃ listing fault, Declined s slot a listing fault

/-- Attributes on the list are not unsupported. -/
theorem Listed.not_unsupported {listing : List Request}
    (h : Listed s slot a listing) : ¬ Unsupported s slot a := by
  obtain ⟨info, list, t, hran, _, hslot, hmem⟩ := h.shown
  rintro (hfixed | ⟨other, fault, hdeclined⟩)
  · exact hfixed h.changeable
  · -- the same card gives the same list twice
    cases hdeclined with
    | slot _ hagain _ hnone =>
        obtain rfl := Except.ok.inj
          (congrArg Prod.fst (hagain.run.symm.trans hran.run))
        cases hnone.symm.trans hslot
    | attributes _ hagain _ hsome hnot =>
        obtain rfl := Except.ok.inj
          (congrArg Prod.fst (hagain.run.symm.trans hran.run))
        obtain rfl := Option.some.inj (hsome.symm.trans hslot)
        exact hnot hmem

/-- The session refuses an algorithm as unsupported where it is, and
nowhere else. -/
theorem Writing.unsupported_iff {asked : List Request}
    {result : Except Error Unit} (h : Writing s slot a asked result) :
    (∃ fault, result = .error (.unsupported fault))
      ↔ Unsupported s slot a := by
  constructor
  · rintro ⟨fault, rfl⟩
    cases h with
    | declined hdeclined => exact Or.inr ⟨_, _, hdeclined⟩
    | unlisted _ hwhy =>
        cases hwhy with
        | fixed hfixed => exact Or.inl hfixed
  · intro hunsupported
    cases h with
    | declined _ => exact ⟨_, rfl⟩
    | closed hlisted => exact absurd hunsupported hlisted.not_unsupported
    | refused hlisted _ _ => exact absurd hunsupported hlisted.not_unsupported
    | done hlisted _ _ => exact absurd hunsupported hlisted.not_unsupported
    | unlisted hran hwhy =>
        rcases hunsupported with hfixed | ⟨other, fault, hdeclined⟩
        · cases hwhy with
          | fixed _ => exact ⟨_, rfl⟩
          | closed hchange _ => exact absurd hchange hfixed
          | refused _ hchange _ => exact absurd hchange hfixed
          | misshapen _ hchange _ => exact absurd hchange hfixed
        · cases hdeclined with
          | slot _ hagain _ _ =>
              cases congrArg Prod.fst (hagain.run.symm.trans hran.run)
          | attributes _ hagain _ _ _ =>
              cases congrArg Prod.fst (hagain.run.symm.trans hran.run)

/-- The write with which the deletion of a key begins. -/
def switchCommand (slot : Slot) : Command :=
  putDataCommand slot.attributes (Attributes.rsaOf 4096 .standard).bytes

/-- The ways in which a key may or may not be deleted. -/
inductive Deleting (s : Session σ) (slot : Slot) :
    List Request → Except Error Unit → Prop
  | old : s.version.isBelow ⟨4, 0, 0⟩ = true →
      Deleting s slot [] (.error (.unsupported .deletion))
  | unswitched {asked : List Request} {e : Error} :
      s.version.isBelow ⟨4, 0, 0⟩ = false →
      Sent s (switchCommand slot) asked (.error e) →
      Deleting s slot asked (.error e)
  | switched {write : Request} {later : List Request} {mid : Terminal σ}
      {result : Except Error Unit} :
      s.version.isBelow ⟨4, 0, 0⟩ = false →
      Terminal.Asked [write] s.terminal mid →
      write.command = switchCommand slot → write.Succeeded →
      Writing { s with terminal := mid } slot (.rsaOf 2048 .standard)
        later result →
      Deleting s slot (write :: later) result

/-- Firmware below 4.0.0 refuses the deletion with nothing sent. -/
theorem deleteKey_old {s : Session σ}
    (h : s.version.isBelow ⟨4, 0, 0⟩ = true) (slot : Slot) :
    (deleteKey slot).run.run s = (.error (.unsupported .deletion), s) := by
  unfold deleteKey
  rw [run_bind_ok (run_get s)]
  simp only [h, if_true]
  rfl

/-- From 4.0.0 on, a deletion switches the slot to another algorithm and
back to RSA 2048. -/
theorem deleteKey_recent {s : Session σ}
    (h : s.version.isBelow ⟨4, 0, 0⟩ = false) (slot : Slot) :
    (deleteKey slot).run.run s
      = (perform (switchCommand slot) >>= fun _ =>
          setAttributes slot (.rsaOf 2048 .standard)).run.run s := by
  unfold deleteKey
  rw [run_bind_ok (run_get s)]
  simp only [h]
  rfl

/-- Every deletion is one of the courses that `Deleting` lists. -/
theorem deleteKey_ran (slot : Slot) (s : Session σ) :
    ∃ asked result t, Ran (deleteKey slot) s asked result t
      ∧ Deleting s slot asked result := by
  cases hversion : s.version.isBelow ⟨4, 0, 0⟩ with
  | true =>
      exact ⟨[], _, _, .none (deleteKey_old hversion slot), .old hversion⟩
  | false =>
      have hrun := deleteKey_recent hversion slot
      obtain ⟨first, answer, mid, hswitch, hsent⟩ :=
        perform_ran (switchCommand slot) s
      cases answer with
      | error e =>
          exact ⟨first, _, mid, hswitch.fails.congr hrun,
            .unswitched hversion hsent⟩
      | ok payload =>
          cases hsent with
          | done hstage hcommand hpayload =>
              obtain ⟨later, result, t, hback, hwriting⟩ := setAttributes_ran
                slot (.rsaOf 2048 .standard) { s with terminal := mid }
              exact ⟨_, result, t, .congr hrun (hswitch.bind
                (f := fun _ => setAttributes slot _) hback),
                .switched hversion hswitch.asked hcommand
                  (Terminal.Request.succeeded_of_payload hpayload) hwriting⟩

/-- The slot was switched to RSA 4096, and then the session refused to switch
it back; all that came behind was to ask the card for its list. -/
structure Stranded (s : Session σ) (slot : Slot) (asked : List Request) :
    Prop where
  recent : s.version.isBelow ⟨4, 0, 0⟩ = false
  switched : ∃ write later mid, asked = write :: later
    ∧ Terminal.Asked [write] s.terminal mid
    ∧ write.command = switchCommand slot ∧ write.Succeeded
    ∧ Unsupported { s with terminal := mid } slot (.rsaOf 2048 .standard)
    ∧ ∀ request ∈ later,
      request.command = getDataCommand ObjectId.algorithmInformation

/-- The same request leads to the same terminal. -/
theorem asked_unique {request : Request} {t mid other : Terminal σ}
    (h : Terminal.Asked [request] t mid)
    (hother : Terminal.Asked [request] t other) : mid = other := by
  cases h with
  | cons hrun _ hrest =>
      cases hrest
      cases hother with
      | cons hagain _ hnone =>
          cases hnone
          exact congrArg Prod.snd (hrun.symm.trans hagain)

/-- A stranded deletion is reported as unsupported. -/
theorem Stranded.result {asked : List Request} {result : Except Error Unit}
    (hstranded : Stranded s slot asked) (h : Deleting s slot asked result) :
    ∃ fault, result = .error (.unsupported fault) := by
  obtain ⟨hrecent, write, later, mid, hasked, hmid, hcommand, hdone, hno, _⟩
    := hstranded
  cases h with
  | old hold => cases hold.symm.trans hrecent
  | unswitched _ hsent =>
      obtain ⟨payload, hpayload⟩ := Terminal.Request.payload_of_succeeded hdone
      cases hsent with
      | closed _ => cases hasked
      | refused _ _ hcause =>
          obtain rfl := (List.cons.inj hasked).1
          cases hcause.symm.trans hpayload
  | switched _ hother _ _ hwriting =>
      -- the list is asked for at the terminal that the switch left
      obtain ⟨rfl, rfl⟩ := List.cons.inj hasked
      obtain rfl := asked_unique hmid hother
      exact hwriting.unsupported_iff.mpr hno

/-- A deletion that is unsupported after a request is stranded. -/
theorem stranded_of_put {asked : List Request} {fault : UnsupportedFault}
    {request : Request}
    (h : Deleting s slot asked (.error (.unsupported fault)))
    (hmem : request ∈ asked) : Stranded s slot asked := by
  cases h with
  | old _ => cases hmem
  | unswitched _ hsent => cases hsent
  | switched hversion hasked hcommand hdone hwriting =>
      exact ⟨hversion, _, _, _, rfl, hasked, hcommand, hdone,
        hwriting.unsupported_iff.mp ⟨fault, rfl⟩,
        hwriting.unwritten (fun _ => by simp)⟩

/-- A deletion that the session refuses leaves the data objects of the card
alone, except where the card has taken the switch to RSA 4096 and the way
back is not supported; then the slot stays switched. -/
theorem deleteKey_untouched_unless_stranded (slot : Slot) (s : Session σ) :
    ∃ asked result t, Ran (deleteKey slot) s asked result t
      ∧ t.link.frames
        = s.terminal.link.frames ++ asked.flatMap Request.frames
      ∧ (∀ request ∈ asked, ∀ frame ∈ request.frames,
        Terminal.Shows request.command frame)
      ∧ ((∀ fault, result = .error (.unsupported fault) →
          ∀ request ∈ asked, ¬ PutsData request.command)
        ↔ ¬ Stranded s slot asked) := by
  obtain ⟨asked, result, t, hran, hdeleting⟩ := deleteKey_ran slot s
  refine ⟨asked, result, t, hran, hran.asked.frames, hran.asked.shown,
    ?_, ?_⟩
  · intro hquiet hstranded
    obtain ⟨fault, hresult⟩ := hstranded.result hdeleting
    obtain ⟨write, later, mid, hasked, _, hcommand, _⟩ := hstranded.switched
    exact hquiet fault hresult write (by rw [hasked]; simp)
      (hcommand ▸ putsData_put _ _)
  · rintro hnot fault rfl request hmem _
    exact hnot (stranded_of_put hdeleting hmem)

/-- A card of version 4.3.7 takes the switch of the slot of attestation,
which has no algorithm to be switched back to. -/
theorem deleteKey_strands_attestation :
    ¬ ∀ (s : Session ScriptedCard) (slot : Slot) (fault : UnsupportedFault)
        (after : Session ScriptedCard) (sent : List Bytes),
      (deleteKey slot).run.run s = (.error (.unsupported fault), after) →
      after.terminal.link.frames = s.terminal.link.frames ++ sent →
      ∀ frame ∈ sent, frame[1]? ≠ some 0xDA ∧ frame[1]? ≠ some 0xDB := by
  intro h
  have hquiet := h (willingCard ⟨4, 3, 7⟩) .att (.slot .att) _
    [[0x00, 0xDA, 0x00, 0xDA, 0x06, 0x01, 0x10, 0x00, 0x00, 0x11, 0x00]]
    rfl rfl _ List.mem_cons_self
  exact hquiet.1 rfl

end SmartCard.OpenPgp.Session
