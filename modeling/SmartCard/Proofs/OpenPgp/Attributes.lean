/-
How a slot gets its algorithm. The session finds out first which algorithms
the slot accepts, from what it knows of old versions or from the card; only
an algorithm that is among them is written, by one command.

# What is known of a list

A list that was found is `Offered`: the requests before it are named, none
or the one that reads it, and so is the way from the answer to the list.
Writing then has three ways (`Writing`): no list was found, the algorithm is
not on it, or it is and the write goes out.
-/
import SmartCard.OpenPgp.Session.Keys
import SmartCard.Proofs.OpenPgp.Requests

namespace SmartCard.OpenPgp.Session

open Terminal (Request)

variable {σ : Type}

-- ============================================================== the lists

/-- The card says that the algorithms of its slots can be changed. -/
def Changeable (s : Session σ) : Prop :=
  s.data.capabilities.has .changeableAttributes = true

/-- The algorithms that the slots accept, and the requests that it took to
know. Old versions are known; newer ones are asked, and the lists of some
of them are put right. -/
inductive Offered (s : Session σ) :
    List Request → AlgorithmInformation → Prop
  | known : s.version.isBelow ⟨5, 2, 0⟩ = true →
      Offered s [] (.legacy s.version)
  | corrected {request : Request} {answer : Bytes} {entries : List Tlv} :
      s.version.isBelow ⟨5, 2, 0⟩ = false →
      s.version.isBelow ⟨5, 6, 1⟩ = true →
      request.command = getDataCommand ObjectId.algorithmInformation →
      request.payload = .ok answer → algorithmEntries answer = .ok entries →
      Offered s [request]
        (AlgorithmInformation.ofEntries entries).correctCurve25519
  | told {request : Request} {answer : Bytes} {entries : List Tlv} :
      s.version.isBelow ⟨5, 2, 0⟩ = false →
      s.version.isBelow ⟨5, 6, 1⟩ = false →
      request.command = getDataCommand ObjectId.algorithmInformation →
      request.payload = .ok answer → algorithmEntries answer = .ok entries →
      Offered s [request] (.ofEntries entries)

/-- Where no list is found: the algorithms can not be changed, or the list
of the card could not be read. -/
inductive Unlisted (s : Session σ) : List Request → Error → Prop
  | fixed : ¬ Changeable s → Unlisted s [] (.unsupported .fixedAttributes)
  | closed : Changeable s → s.stage = .closed →
      Unlisted s [] (.invalidState .closed)
  | refused {request : Request} (cause : SmartCard.Error) : Changeable s →
      request.command = getDataCommand ObjectId.algorithmInformation →
      Unlisted s [request] (.card cause)
  | misshapen {request : Request} (fault : DataFault) : Changeable s →
      request.command = getDataCommand ObjectId.algorithmInformation →
      Unlisted s [request] (.invalidData fault)

/-- To find a list, the session reads at most that one data object. -/
theorem Offered.reads {s : Session σ} {listing : List Request}
    {info : AlgorithmInformation} (h : Offered s listing info) :
    ∀ request ∈ listing,
      request.command = getDataCommand ObjectId.algorithmInformation := by
  cases h with
  | known _ => simp
  | corrected _ _ hcommand _ _ => simpa using hcommand
  | told _ _ hcommand _ _ => simpa using hcommand

/-- Without a list, all that was sent is reads of it. -/
theorem Unlisted.reads {s : Session σ} {listing : List Request} {e : Error}
    (h : Unlisted s listing e) :
    ∀ request ∈ listing,
      request.command = getDataCommand ObjectId.algorithmInformation := by
  cases h with
  | fixed _ => simp
  | closed _ _ => simp
  | refused _ _ hcommand => simpa using hcommand
  | misshapen _ _ hcommand => simpa using hcommand

variable [Transport σ]

/-- The two ways to look for a list. -/
inductive Listing (s : Session σ) :
    List Request → Except Error AlgorithmInformation → Terminal σ → Prop
  | found {listing : List Request} {info : AlgorithmInformation}
      {t : Terminal σ} : Changeable s →
      Ran algorithmInformation s listing (.ok info) t →
      Offered s listing info → Listing s listing (.ok info) t
  | failed {listing : List Request} {e : Error} {t : Terminal σ} :
      Ran algorithmInformation s listing (.error e) t →
      Unlisted s listing e → Listing s listing (.error e) t

omit [Transport σ] in
/-- An answer of the card, read as the list of its version. -/
theorem offered_or_misshapen {s : Session σ} {request : Request}
    {answer : Bytes} (hchange : Changeable s)
    (hnew : s.version.isBelow ⟨5, 2, 0⟩ = false)
    (hcommand : request.command
      = getDataCommand ObjectId.algorithmInformation)
    (hpayload : request.payload = .ok answer) :
    (∃ info, algorithmList s.version answer = .ok info
        ∧ Offered s [request] info)
      ∨ ∃ fault, algorithmList s.version answer = .error fault
        ∧ Unlisted s [request] (.invalidData fault) := by
  unfold algorithmList
  cases hentries : algorithmEntries answer with
  | error fault => exact Or.inr ⟨fault, rfl, .misshapen fault hchange hcommand⟩
  | ok entries =>
      refine Or.inl ⟨_, rfl, ?_⟩
      cases hold : s.version.isBelow ⟨5, 6, 1⟩ with
      | false => exact .told hnew hold hcommand hpayload hentries
      | true => exact .corrected hnew hold hcommand hpayload hentries

/-- Old versions are not asked. -/
theorem algorithmInformation_known {s : Session σ} (hchange : Changeable s)
    (hold : s.version.isBelow ⟨5, 2, 0⟩ = true) :
    algorithmInformation.run.run s = (.ok (.legacy s.version), s) := by
  unfold Changeable at hchange
  unfold algorithmInformation
  rw [run_bind_ok (run_capabilities s), if_pos hchange,
    run_bind_ok (run_get s)]
  simp only [hold, if_true]
  rfl

/-- Newer ones are asked, and the answer is read. -/
theorem algorithmInformation_asks {s : Session σ} (hchange : Changeable s)
    (hnew : s.version.isBelow ⟨5, 2, 0⟩ = false) :
    algorithmInformation.run.run s
      = (send (getDataCommand ObjectId.algorithmInformation) >>= fun answer =>
          wellFormed (algorithmList s.version answer)).run.run s := by
  unfold Changeable at hchange
  unfold algorithmInformation
  rw [run_bind_ok (run_capabilities s), if_pos hchange,
    run_bind_ok (run_get s)]
  simp only [hnew]
  rfl

/-- With fixed attributes the list is not asked for. -/
theorem algorithmInformation_fixed {s : Session σ} (h : ¬ Changeable s) :
    algorithmInformation.run.run s
      = (.error (.unsupported .fixedAttributes), s) := by
  unfold Changeable at h
  unfold algorithmInformation
  rw [run_bind_ok (run_capabilities s), if_neg h]
  rfl

/-- Every reading of the list is one that `Listing` describes. -/
theorem algorithmInformation_ran (s : Session σ) :
    ∃ listing result t, Listing s listing result t := by
  by_cases hchange : Changeable s
  · cases hold : s.version.isBelow ⟨5, 2, 0⟩ with
    | true =>
        exact ⟨[], _, _, .found hchange
          (.none (algorithmInformation_known hchange hold)) (.known hold)⟩
    | false =>
        obtain ⟨asked, result, t, hran, hsent⟩ :=
          send_ran (getDataCommand ObjectId.algorithmInformation) s
        have hlook := hran.look
          (f := fun answer => wellFormed (algorithmList s.version answer))
          (fun _ mid => run_wellFormed _ mid)
        have hread := hlook.congr (algorithmInformation_asks hchange hold)
        -- there is a list to read only where the card gave an answer
        cases hsent with
        | closed hstage =>
            exact ⟨_, _, t, .failed hread (.closed hchange hstage)⟩
        | refused _ hcommand _ =>
            exact ⟨_, _, t, .failed hread (.refused _ hchange hcommand)⟩
        | @done request answer _ hcommand hpayload =>
            have hlist : Ran algorithmInformation s [request]
              ((algorithmList s.version answer).mapError Error.invalidData)
              t := hread
            rcases offered_or_misshapen hchange hold hcommand hpayload with
              ⟨info, hinfo, hoffered⟩ | ⟨fault, hfault, hunlisted⟩
            · rw [hinfo] at hlist
              exact ⟨_, _, t, .found hchange hlist hoffered⟩
            · rw [hfault] at hlist
              exact ⟨_, _, t, .failed hlist hunlisted⟩
  · exact ⟨[], _, _, .failed (.none (algorithmInformation_fixed hchange))
      (.fixed hchange)⟩

-- ================================================================ writing

/-- The slot accepts the algorithm, by the list that the requests led
to. -/
structure Listed (s : Session σ) (slot : Slot) (a : Attributes)
    (listing : List Request) : Prop where
  changeable : Changeable s
  shown : ∃ info list t, Ran algorithmInformation s listing (.ok info) t
    ∧ Offered s listing info ∧ info slot = some list ∧ a ∈ list

/-- There is a list, but the slot is not on it, or the algorithm is not
among those of the slot. -/
inductive Declined (s : Session σ) (slot : Slot) (a : Attributes)
    (listing : List Request) : UnsupportedFault → Prop
  | slot {info : AlgorithmInformation} {t : Terminal σ} : Changeable s →
      Ran algorithmInformation s listing (.ok info) t →
      Offered s listing info → info slot = none →
      Declined s slot a listing (.slot slot)
  | attributes {info : AlgorithmInformation} {list : List Attributes}
      {t : Terminal σ} : Changeable s →
      Ran algorithmInformation s listing (.ok info) t →
      Offered s listing info → info slot = some list → a ∉ list →
      Declined s slot a listing (.attributes a)

/-- A list that names the attributes was read. -/
theorem Listed.reads {s : Session σ} {slot : Slot} {a : Attributes}
    {listing : List Request} (h : Listed s slot a listing) :
    ∀ request ∈ listing,
      request.command = getDataCommand ObjectId.algorithmInformation := by
  obtain ⟨info, list, t, _, hoffered, _, _⟩ := h.shown
  exact hoffered.reads

theorem Declined.reads {s : Session σ} {slot : Slot} {a : Attributes}
    {listing : List Request} {fault : UnsupportedFault}
    (h : Declined s slot a listing fault) :
    ∀ request ∈ listing,
      request.command = getDataCommand ObjectId.algorithmInformation := by
  cases h with
  | slot _ _ hoffered _ => exact hoffered.reads
  | attributes _ _ hoffered _ _ => exact hoffered.reads

/-- The ways in which a slot may or may not be given an algorithm. -/
inductive Writing (s : Session σ) (slot : Slot) (a : Attributes) :
    List Request → Except Error Unit → Prop
  | unlisted {listing : List Request} {e : Error} {t : Terminal σ} :
      Ran algorithmInformation s listing (.error e) t →
      Unlisted s listing e → Writing s slot a listing (.error e)
  | declined {listing : List Request} {fault : UnsupportedFault} :
      Declined s slot a listing fault →
      Writing s slot a listing (.error (.unsupported fault))
  | closed {listing : List Request} : Listed s slot a listing →
      Writing s slot a listing (.error (.invalidState .closed))
  | refused {listing : List Request} {write : Request}
      {cause : SmartCard.Error} : Listed s slot a listing →
      write.command = putDataCommand slot.attributes a.bytes →
      write.payload = .error cause →
      Writing s slot a (listing ++ [write]) (.error (.card cause))
  | done {listing : List Request} {write : Request} :
      Listed s slot a listing →
      write.command = putDataCommand slot.attributes a.bytes →
      write.Succeeded → Writing s slot a (listing ++ [write]) (.ok ())

/-- What is done once there is a list. -/
def writeListed (slot : Slot) (a : Attributes) (info : AlgorithmInformation) :
    Activity σ Unit :=
  match info slot with
  | none => throw (.unsupported (.slot slot))
  | some list => do
    unless list.contains a do throw (.unsupported (.attributes a))
    putData slot.attributes a.bytes

/-- Attributes are written against the list just read. -/
theorem setAttributes_eq (slot : Slot) (a : Attributes) :
    (setAttributes slot a : Activity σ Unit)
      = algorithmInformation >>= writeListed slot a := rfl

variable {slot : Slot} {a : Attributes} {info : AlgorithmInformation}
  {list : List Attributes}

/-- A slot that the list lacks is refused unwritten. -/
theorem writeListed_slot (h : info slot = none) (s : Session σ) :
    (writeListed slot a info).run.run s
      = (.error (.unsupported (.slot slot)), s) := by
  unfold writeListed
  rw [h]
  rfl

/-- So are attributes that the slot's list lacks. -/
theorem writeListed_attributes (h : info slot = some list) (hnot : a ∉ list)
    (s : Session σ) :
    (writeListed slot a info).run.run s
      = (.error (.unsupported (.attributes a)), s) := by
  unfold writeListed
  rw [h]
  simp only [List.contains_eq_mem, hnot, decide_false]
  rfl

/-- Attributes that the slot's list names are one PUT DATA. -/
theorem writeListed_eq (h : info slot = some list) (hmem : a ∈ list) :
    (writeListed slot a info : Activity σ Unit)
      = perform (putDataCommand slot.attributes a.bytes) := by
  unfold writeListed
  rw [h]
  simp only [List.contains_eq_mem, hmem, decide_true, if_true]
  rfl

/-- Every attempt to write attributes is one of those that `Writing`
lists. -/
theorem setAttributes_ran (slot : Slot) (a : Attributes) (s : Session σ) :
    ∃ asked result t, Ran (setAttributes slot a) s asked result t
      ∧ Writing s slot a asked result := by
  rw [setAttributes_eq]
  obtain ⟨listing, found, mid, hlisting⟩ := algorithmInformation_ran s
  cases hlisting with
  | failed hran hunlisted =>
      exact ⟨listing, _, mid, hran.fails, .unlisted hran hunlisted⟩
  | @found info _ hchange hran hoffered =>
      cases hslot : info slot with
      | none =>
          exact ⟨listing, _, mid, hran.ends (writeListed_slot hslot _),
            .declined (.slot hchange hran hoffered hslot)⟩
      | some list =>
          by_cases hmem : a ∈ list
          · have hlisted : Listed s slot a listing :=
              ⟨hchange, info, list, mid, hran, hoffered, hslot, hmem⟩
            obtain ⟨asked, result, t, hput, hsent⟩ := perform_ran
              (putDataCommand slot.attributes a.bytes)
              { s with terminal := mid }
            rw [← writeListed_eq hslot hmem] at hput
            refine ⟨listing ++ asked, _, t, hran.bind hput, ?_⟩
            cases hsent with
            | closed _ =>
                rw [List.append_nil]
                exact .closed hlisted
            | refused _ hcommand hcause =>
                exact .refused hlisted hcommand hcause
            | done _ hcommand hpayload =>
                exact .done hlisted hcommand
                  (Terminal.Request.succeeded_of_payload hpayload)
          · exact ⟨listing, _, mid,
              hran.ends (writeListed_attributes hslot hmem _),
              .declined (.attributes hchange hran hoffered hslot hmem)⟩

end SmartCard.OpenPgp.Session
