/-
The operations that give a slot its algorithm: on its own, before a key is
made, and before a key is put in. Whatever the card answers, the algorithm
goes to the slot it is meant for and is one that the slot was found to
accept; and a key is only made or put in once the card has taken the
algorithm, or where algorithms are fixed and the key is the one that fits.

# The course of an operation

An operation prepares the slot (`Preparing`), and goes on only if that went
well (`Prepared`). So its requests are one of three (`Course`): none, those
of an attempt to give the slot its algorithm, or those of a preparation and
one command about the key behind them.
-/
import SmartCard.Proofs.OpenPgp.Attributes

namespace SmartCard.OpenPgp.Session

open Terminal (Request)

variable {σ : Type}

-- ============================================================= preparing

section Preparing

variable [Transport σ]

/-- The slot is ready for a key with the algorithm: the card has just taken
it, or it is the one of cards with fixed algorithms. -/
inductive Prepared (s : Session σ) (slot : Slot) (a : Attributes) :
    List Request → Prop
  | written {listing : List Request} {write : Request} :
      Listed s slot a listing →
      write.command = putDataCommand slot.attributes a.bytes →
      write.Succeeded → Prepared s slot a (listing ++ [write])
  | fixed : ¬ Changeable s → isRsa2048 a = true → Prepared s slot a []

/-- Give a slot the algorithm for a key, or see whether the fixed one will
do. -/
def prepare (slot : Slot) (a : Attributes) (fault : UnsupportedFault) :
    Activity σ Unit := do
  if (← capabilities).has .changeableAttributes then setAttributes slot a
  else if !isRsa2048 a then throw (.unsupported fault)

/-- The ways in which that ends. -/
inductive Preparing (s : Session σ) (slot : Slot) (a : Attributes)
    (fault : UnsupportedFault) : List Request → Except Error Unit → Prop
  | unfit : ¬ Changeable s → isRsa2048 a = false →
      Preparing s slot a fault [] (.error (.unsupported fault))
  | unwritten {asked : List Request} {e : Error} : Changeable s →
      Writing s slot a asked (.error e) →
      Preparing s slot a fault asked (.error e)
  | ready {asked : List Request} : Prepared s slot a asked →
      Preparing s slot a fault asked (.ok ())

/-- With changeable attributes, a preparation is an attempt to write
them. -/
theorem prepare_changeable {s : Session σ} (h : Changeable s) (slot : Slot)
    (a : Attributes) (fault : UnsupportedFault) :
    (prepare slot a fault).run.run s = (setAttributes slot a).run.run s := by
  unfold Changeable at h
  unfold prepare
  rw [run_bind_ok (run_capabilities s), if_pos h]

/-- With fixed attributes a preparation sends nothing, and passes for RSA
2048 only. -/
theorem prepare_fixed {s : Session σ} (h : ¬ Changeable s) (slot : Slot)
    (a : Attributes) (fault : UnsupportedFault) :
    (prepare slot a fault).run.run s
      = (if isRsa2048 a then .ok () else .error (.unsupported fault), s) := by
  unfold Changeable at h
  unfold prepare
  rw [run_bind_ok (run_capabilities s), if_neg h]
  cases isRsa2048 a <;> rfl

/-- Every preparation is one of the courses that `Preparing` lists. -/
theorem prepare_ran (slot : Slot) (a : Attributes) (fault : UnsupportedFault)
    (s : Session σ) :
    ∃ asked result t, Ran (prepare slot a fault) s asked result t
      ∧ Preparing s slot a fault asked result := by
  by_cases h : Changeable s
  · obtain ⟨asked, result, t, hran, hwriting⟩ := setAttributes_ran slot a s
    refine ⟨asked, result, t,
      hran.congr (prepare_changeable h slot a fault), ?_⟩
    cases result with
    | error e => exact .unwritten h hwriting
    | ok _ =>
        cases hwriting with
        | done hlisted hcommand hdone =>
            exact .ready (.written hlisted hcommand hdone)
  · have hrun := prepare_fixed h slot a fault
    cases hsize : isRsa2048 a with
    | false =>
        rw [hsize] at hrun
        exact ⟨[], _, _, .none hrun, .unfit h hsize⟩
    | true =>
        rw [hsize] at hrun
        exact ⟨[], _, _, .none hrun, .ready (.fixed h hsize)⟩

-- ========================================= the requests of an operation

/-- A command that puts a key into a slot, or makes one there. -/
def MovesKey (c : Command) : Prop :=
  (c.ins = 0xDB ∧ c.p1 = 0x3F ∧ c.p2 = 0xFF) ∨ (c.ins = 0x47 ∧ c.p1 = 0x80)

theorem movesKey_import (t : KeyTemplate) : MovesKey (importCommand t) :=
  Or.inl ⟨rfl, rfl, rfl⟩

theorem movesKey_generate (slot : Slot) : MovesKey (generateCommand slot) :=
  Or.inr ⟨rfl, rfl⟩

/-- The requests of an operation that gives a slot an algorithm: those of
the attempt to do so, or those of a preparation and one about the key. -/
inductive Course (s : Session σ) (slot : Slot) (a : Attributes) :
    List Request → Prop
  | writing {asked : List Request} {result : Except Error Unit} :
      Writing s slot a asked result → Course s slot a asked
  | moving {prepared : List Request} {request : Request} :
      Prepared s slot a prepared → MovesKey request.command →
      Course s slot a (prepared ++ [request])

variable {s : Session σ} {slot : Slot} {a : Attributes}

/-- The requests of a finished preparation, if it sent any, are a course. -/
theorem Prepared.course {prepared : List Request}
    (h : Prepared s slot a prepared) :
    prepared = [] ∨ Course s slot a prepared := by
  cases h with
  | written hlisted hcommand hdone =>
      exact Or.inr (.writing (.done hlisted hcommand hdone))
  | fixed _ _ => exact Or.inl rfl

/-- So are those of one that failed. -/
theorem Preparing.course {fault : UnsupportedFault} {asked : List Request}
    {result : Except Error Unit} (h : Preparing s slot a fault asked result) :
    asked = [] ∨ Course s slot a asked := by
  cases h with
  | unfit _ _ => exact Or.inl rfl
  | unwritten _ hwriting => exact Or.inr (.writing hwriting)
  | ready hprepared => exact hprepared.course

/-- A command about the key comes behind what prepared its slot. -/
theorem Prepared.moves {prepared asked : List Request} {mid : Session σ}
    {c : Command} {result : Except Error Bytes}
    (h : Prepared s slot a prepared) (hmoves : MovesKey c)
    (hsent : Sent mid c asked result) :
    prepared ++ asked = [] ∨ Course s slot a (prepared ++ asked) := by
  cases hsent with
  | closed _ =>
      rw [List.append_nil]
      exact h.course
  | refused _ hcommand _ =>
      rw [← hcommand] at hmoves
      exact Or.inr (.moving h hmoves)
  | done _ hcommand _ =>
      rw [← hcommand] at hmoves
      exact Or.inr (.moving h hmoves)

-- ============================================================= making keys

/-- A key is made by one command, and read from what the card returns. -/
theorem generate_ran (slot : Slot) (curve : Option Curve) (s : Session σ) :
    ∃ asked answer t,
      Ran (generate slot curve) s asked
        (answer.bind fun answer => parsePublicKey answer curve) t
      ∧ Sent s (generateCommand slot) asked answer := by
  obtain ⟨asked, answer, t, hran, hsent⟩ := send_ran (generateCommand slot) s
  exact ⟨asked, answer, t, hran.look (fun _ mid => run_lift _ mid), hsent⟩

/-- A key is made behind what prepared its slot. -/
theorem generate_prepared {x : Activity σ Unit} {prepared : List Request}
    {mid : Terminal σ} (curve : Option Curve)
    (hx : Ran x s prepared (.ok ()) mid) (h : Prepared s slot a prepared) :
    ∃ asked result t, Ran (x >>= fun _ => generate slot curve) s asked result t
      ∧ (asked = [] ∨ Course s slot a asked) := by
  obtain ⟨asked, answer, t, hran, hsent⟩ :=
    generate_ran slot curve { s with terminal := mid }
  exact ⟨prepared ++ asked, _, t, hx.bind hran,
    h.moves (movesKey_generate slot) hsent⟩

/-- An RSA generation is the feature check, the preparation and the
generation itself. -/
theorem generateRsa_eq (slot : Slot) (bits : UInt16) :
    (generateRsa slot bits : Activity σ PublicKey)
      = require Features.rsaGeneration >>= fun _ =>
          prepare slot (.rsaOf bits .standard) .rsaSize >>= fun _ =>
            generate slot none := by
  unfold generateRsa prepare
  simp only [bind_assoc, isRsa2048, Attributes.rsaOf]
  refine bind_congr fun _ => bind_congr fun card => ?_
  by_cases h : card.has .changeableAttributes = true
  · simp only [h, if_true]
  · by_cases hbits : bits = 2048
    · simp [h, hbits]
    · simp [h, hbits]

/-- For a key on a curve the attributes are written in any case. No curve is
left to fixed attributes. -/
theorem generateEc_eq (slot : Slot) (curve : Curve) :
    (generateEc slot curve : Activity σ PublicKey)
      = require Features.ellipticCurves >>= fun _ =>
          setAttributes slot (.ecOf slot curve) >>= fun _ =>
            generate slot (some curve) := rfl

/-- A version that lacks a feature is refused before anything is asked. -/
theorem required_ran {feature : Feature} {x : Activity σ PublicKey}
    (hx : ∃ asked result t, Ran x s asked result t
      ∧ (asked = [] ∨ Course s slot a asked)) :
    ∃ asked result t, Ran (require feature >>= fun _ => x) s asked result t
      ∧ (asked = [] ∨ Course s slot a asked) := by
  have hrequire := run_require feature s
  cases hfeature : feature.require s.version with
  | error e =>
      rw [hfeature] at hrequire
      exact ⟨[], _, _, (Ran.none hrequire).fails, Or.inl rfl⟩
  | ok _ =>
      rw [hfeature] at hrequire
      obtain ⟨asked, result, t, hran, hcourse⟩ := hx
      exact ⟨asked, result, t, .after hrequire hran, hcourse⟩

/-- Whatever an RSA generation sends is a course of its attributes. -/
theorem generateRsa_ran (slot : Slot) (bits : UInt16) (s : Session σ) :
    ∃ asked result t, Ran (generateRsa slot bits) s asked result t
      ∧ (asked = [] ∨ Course s slot (.rsaOf bits .standard) asked) := by
  rw [generateRsa_eq]
  apply required_ran
  obtain ⟨first, outcome, mid, hran, hprep⟩ :=
    prepare_ran slot (.rsaOf bits .standard) .rsaSize s
  cases outcome with
  | error e => exact ⟨first, _, mid, hran.fails, hprep.course⟩
  | ok _ =>
      cases hprep with
      | ready hprepared => exact generate_prepared none hran hprepared

/-- Whatever a generation on a curve sends is a course of its attributes. -/
theorem generateEc_ran (slot : Slot) (curve : Curve) (s : Session σ) :
    ∃ asked result t, Ran (generateEc slot curve) s asked result t
      ∧ (asked = [] ∨ Course s slot (.ecOf slot curve) asked) := by
  rw [generateEc_eq]
  apply required_ran
  obtain ⟨first, outcome, mid, hran, hwriting⟩ :=
    setAttributes_ran slot (.ecOf slot curve) s
  cases outcome with
  | error e => exact ⟨first, _, mid, hran.fails, Or.inr (.writing hwriting)⟩
  | ok _ =>
      cases hwriting with
      | done hlisted hcommand hdone =>
          exact generate_prepared (some curve) hran
            (.written hlisted hcommand hdone)

-- ======================================================== putting a key in

/-- Put the template of a key together, and send it. -/
def importKey (slot : Slot) (crt : Bool) (key : PrivateKey) :
    Activity σ Unit := do
  let t ← wellFormed (KeyTemplate.ofKey slot crt key)
  perform (importCommand t)

/-- A key with no template is refused before anything is sent. -/
theorem importKey_unfit {crt : Bool} {key : PrivateKey} {fault : DataFault}
    (h : KeyTemplate.ofKey slot crt key = .error fault) (s : Session σ) :
    (importKey slot crt key).run.run s = (.error (.invalidData fault), s) := by
  unfold importKey
  rw [h]
  exact run_bind_error (run_wellFormed (.error fault) s)

/-- A key with a template is one import command. -/
theorem importKey_ran {crt : Bool} {key : PrivateKey} {t : KeyTemplate}
    (h : KeyTemplate.ofKey slot crt key = .ok t) (s : Session σ) :
    ∃ asked answer after,
      Ran (importKey slot crt key) s asked (answer.map fun _ => ()) after
        ∧ Sent s (importCommand t) asked answer := by
  obtain ⟨asked, answer, after, hran, hsent⟩ :=
    perform_ran (importCommand t) s
  unfold importKey
  rw [h]
  exact ⟨asked, answer, after, .after (run_wellFormed (.ok t) s) hran, hsent⟩

/-- The template of the key comes last, when the slot is prepared. -/
theorem putKey_run (slot : Slot) (key : PrivateKey) (s : Session σ) :
    (putKey slot key).run.run s
      = (wellFormed (key.attributes slot (s.version.isBelow ⟨4, 0, 0⟩))
          >>= fun a => prepare slot a .onlyRsa2048 >>= fun _ =>
            importKey slot (s.version.isBelow ⟨4, 0, 0⟩) key).run.run s := by
  unfold putKey prepare
  rw [run_bind_ok (run_get s)]
  simp only [bind_assoc]
  congr 2
  -- what stands behind the branches goes on behind each of them
  refine bind_congr fun a => bind_congr fun card => ?_
  by_cases h : card.has .changeableAttributes = true
  · simp only [h, if_true]
    rfl
  · cases hsize : isRsa2048 a <;> simp [h, importKey]

/-- The ways in which a key may or may not be put into a slot. -/
inductive Putting (s : Session σ) (slot : Slot) (key : PrivateKey) :
    List Request → Except Error Unit → Prop
  | unreadable {fault : DataFault} :
      key.attributes slot (s.version.isBelow ⟨4, 0, 0⟩) = .error fault →
      Putting s slot key [] (.error (.invalidData fault))
  | unprepared {a : Attributes} {asked : List Request} {e : Error} :
      key.attributes slot (s.version.isBelow ⟨4, 0, 0⟩) = .ok a →
      Preparing s slot a .onlyRsa2048 asked (.error e) →
      Putting s slot key asked (.error e)
  | unfit {a : Attributes} {prepared : List Request} {fault : DataFault} :
      key.attributes slot (s.version.isBelow ⟨4, 0, 0⟩) = .ok a →
      Prepared s slot a prepared →
      KeyTemplate.ofKey slot (s.version.isBelow ⟨4, 0, 0⟩) key
        = .error fault →
      Putting s slot key prepared (.error (.invalidData fault))
  | given {a : Attributes} {prepared asked : List Request} {t : KeyTemplate}
      {mid : Session σ} {answer : Except Error Bytes} :
      key.attributes slot (s.version.isBelow ⟨4, 0, 0⟩) = .ok a →
      Prepared s slot a prepared →
      KeyTemplate.ofKey slot (s.version.isBelow ⟨4, 0, 0⟩) key = .ok t →
      Sent mid (importCommand t) asked answer →
      Putting s slot key (prepared ++ asked) (answer.map fun _ => ())

/-- Every import is one of the courses that `Putting` lists. -/
theorem putKey_ran (slot : Slot) (key : PrivateKey) (s : Session σ) :
    ∃ asked result t, Ran (putKey slot key) s asked result t
      ∧ Putting s slot key asked result := by
  have hrun := putKey_run slot key s
  have hkey := run_wellFormed
    (key.attributes slot (s.version.isBelow ⟨4, 0, 0⟩)) s
  cases hattributes : key.attributes slot (s.version.isBelow ⟨4, 0, 0⟩) with
  | error fault =>
      rw [hattributes] at hrun hkey
      exact ⟨[], _, _, .none (hrun.trans (run_bind_error hkey)),
        .unreadable hattributes⟩
  | ok a =>
      rw [hattributes] at hrun hkey
      rw [run_bind_ok hkey] at hrun
      obtain ⟨first, outcome, mid, hran, hprep⟩ :=
        prepare_ran slot a .onlyRsa2048 s
      cases outcome with
      | error e =>
          exact ⟨first, _, mid, hran.fails.congr hrun,
            .unprepared hattributes hprep⟩
      | ok _ =>
          cases hprep with
          | ready hprepared =>
              cases hparts : KeyTemplate.ofKey slot
                  (s.version.isBelow ⟨4, 0, 0⟩) key with
              | error fault =>
                  -- too late: the card has the algorithm by now
                  exact ⟨first, _, mid, .congr hrun (hran.ends
                    (f := fun _ => importKey slot _ key)
                    (importKey_unfit hparts _)),
                    .unfit hattributes hprepared hparts⟩
              | ok template =>
                  obtain ⟨asked, answer, t, hput, hsent⟩ :=
                    importKey_ran hparts { s with terminal := mid }
                  exact ⟨first ++ asked, _, t, .congr hrun (hran.bind
                    (f := fun _ => importKey slot _ key) hput),
                    .given hattributes hprepared hparts hsent⟩

-- ======================================================== what is written

/-- A command that gives a slot its algorithm. -/
def WritesAttributes (c : Command) (slot : Slot) : Prop :=
  c.ins = 0xDA ∧ c.p1 = 0x00 ∧ c.p2 = slot.attributes.toUInt8

omit [Transport σ] in
theorem writesAttributes_put (slot : Slot) (content : Bytes) :
    WritesAttributes (putDataCommand slot.attributes content) slot := by
  cases slot <;> exact ⟨rfl, rfl, rfl⟩

/-- A command writes the attributes of one slot at most. -/
theorem WritesAttributes.unique {c : Command} {slot other : Slot}
    (h : WritesAttributes c slot) (hother : WritesAttributes c other) :
    other = slot := by
  have hoctet := hother.2.2.symm.trans h.2.2
  revert hoctet
  cases slot <;> cases other <;> decide

/-- A command that moves a key writes no attributes. -/
theorem MovesKey.not_writes {c : Command} {slot : Slot} (h : MovesKey c) :
    ¬ WritesAttributes c slot := by
  rintro ⟨hins, _, _⟩
  rcases h with ⟨hdb, _, _⟩ | ⟨h47, _⟩
  · exact absurd (hdb.symm.trans hins) (by decide)
  · exact absurd (h47.symm.trans hins) (by decide)

/-- Commands that read a data object do neither. -/
theorem reads_neither {c : Command} {object : ObjectId}
    (h : c = getDataCommand object) :
    (∀ slot, ¬ WritesAttributes c slot) ∧ ¬ MovesKey c := by
  have hins : c.ins = 0xCA := by rw [h]; rfl
  unfold WritesAttributes MovesKey
  rw [hins]
  refine ⟨fun slot hwrites => absurd hwrites.1 (by decide), ?_⟩
  rintro (⟨hdb, _, _⟩ | ⟨h47, _⟩)
  · exact absurd hdb (by decide)
  · exact absurd h47 (by decide)

/-- What a request of a course may be, in view of those before it. -/
inductive Fits (s : Session σ) (slot : Slot) (a : Attributes)
    (before : List Request) (request : Request) : Prop
  | reads : request.command = getDataCommand ObjectId.algorithmInformation →
      Fits s slot a before request
  | writes : request.command = putDataCommand slot.attributes a.bytes →
      Listed s slot a before → Fits s slot a before request
  | moves : MovesKey request.command → Prepared s slot a before →
      Fits s slot a before request

/-- Reads of the algorithm list fit in any order. -/
theorem fits_of_reads {listing : List Request}
    (h : ∀ request ∈ listing,
      request.command = getDataCommand ObjectId.algorithmInformation) :
    Terminal.InOrder (Fits s slot a) listing :=
  .of_forall fun request hmem _ => .reads (h request hmem)

/-- In an attempt to write attributes, the list was read before the write
and names them. -/
theorem Writing.inOrder {asked : List Request} {result : Except Error Unit}
    (h : Writing s slot a asked result) :
    Terminal.InOrder (Fits s slot a) asked := by
  cases h with
  | unlisted _ hwhy => exact fits_of_reads hwhy.reads
  | declined hlist => exact fits_of_reads hlist.reads
  | closed hlisted => exact fits_of_reads hlisted.reads
  | refused hlisted hcommand _ =>
      exact (fits_of_reads hlisted.reads).concat (.writes hcommand hlisted)
  | done hlisted hcommand _ =>
      exact (fits_of_reads hlisted.reads).concat (.writes hcommand hlisted)

theorem Prepared.inOrder {prepared : List Request}
    (h : Prepared s slot a prepared) :
    Terminal.InOrder (Fits s slot a) prepared := by
  cases h with
  | written hlisted hcommand hdone =>
      exact (Writing.done hlisted hcommand hdone).inOrder
  | fixed _ _ => exact fits_of_reads (by simp)

/-- The same of a whole operation. The key moves behind a written or an RSA
2048 preparation. -/
theorem Course.inOrder {asked : List Request} (h : Course s slot a asked) :
    Terminal.InOrder (Fits s slot a) asked := by
  cases h with
  | writing hwriting => exact hwriting.inOrder
  | moving hprepared hmoves =>
      exact hprepared.inOrder.concat (.moves hmoves hprepared)

/-- Only an algorithm of the list is written, and only to its own slot. -/
theorem Fits.written {before : List Request} {request : Request}
    {other : Slot} (h : Fits s slot a before request)
    (hwrites : WritesAttributes request.command other) :
    other = slot ∧ request.command = putDataCommand slot.attributes a.bytes
      ∧ Listed s slot a before := by
  cases h with
  | reads hcommand =>
      exact absurd hwrites ((reads_neither hcommand).1 other)
  | moves hmoves _ => exact absurd hwrites hmoves.not_writes
  | writes hcommand hlisted =>
      have hput := writesAttributes_put slot a.bytes
      rw [← hcommand] at hput
      exact ⟨hput.unique hwrites, hcommand, hlisted⟩

/-- Only behind a preparation is there a command about the key. -/
theorem Fits.moved {before : List Request} {request : Request}
    (h : Fits s slot a before request) (hmoves : MovesKey request.command) :
    Prepared s slot a before := by
  cases h with
  | reads hcommand => exact absurd hmoves (reads_neither hcommand).2
  | moves _ hprepared => exact hprepared
  | writes hcommand _ =>
      have hput := writesAttributes_put slot a.bytes
      rw [← hcommand] at hput
      exact absurd hput hmoves.not_writes

end Preparing

-- ========================================================= the operations

/-- An operation that gives a slot its algorithm. -/
inductive KeyOperation
  /-- Nothing but that. -/
  | setAttributes (a : Attributes)
  /-- Put a private key in. -/
  | putKey (key : PrivateKey)
  /-- Make an RSA key. -/
  | generateRsa (bits : UInt16)
  /-- Make a key on a curve. -/
  | generateEc (curve : Curve)

namespace KeyOperation

/-- Carry the operation out. The public key of a key that was made is
returned. -/
def run [Transport σ] (slot : Slot) :
    KeyOperation → Activity σ (Option PublicKey)
  | setAttributes a => (fun _ => none) <$> Session.setAttributes slot a
  | putKey key => (fun _ => none) <$> Session.putKey slot key
  | generateRsa bits => some <$> Session.generateRsa slot bits
  | generateEc curve => some <$> Session.generateEc slot curve

/-- The algorithm that the slot is to get, on a card of a version. -/
def attributes (slot : Slot) (version : Version) :
    KeyOperation → Except DataFault Attributes
  | setAttributes a => .ok a
  | putKey key => key.attributes slot (version.isBelow ⟨4, 0, 0⟩)
  | generateRsa bits => .ok (.rsaOf bits .standard)
  | generateEc curve => .ok (.ecOf slot curve)

/-- The size of the RSA key that the operation is about. -/
def rsaBits : KeyOperation → Option Nat
  | setAttributes (.rsa bits _ _) => some bits.toNat
  | putKey (.rsa key) => some key.bits
  | generateRsa bits => some bits.toNat
  | _ => none

/-- Only an RSA key of 2048 bits has the attributes of one. -/
theorem bits_of_fixed {key : RsaPrivateKey} {slot : Slot} {crt : Bool}
    {a : Attributes} (h : (PrivateKey.rsa key).attributes slot crt = .ok a)
    (hsize : isRsa2048 a = true) : key.bits = 2048 := by
  simp only [PrivateKey.attributes] at h
  by_cases hlong : key.bits ≥ 0x10000
  · rw [if_pos hlong] at h
    cases h
  · rw [if_neg hlong] at h
    obtain rfl := Except.ok.inj h
    have hbits : UInt16.ofNat key.bits = 2048 := by
      simpa [isRsa2048, Attributes.rsaOf] using hsize
    have hnat : key.bits % 2 ^ 16 = 2048 := congrArg UInt16.toNat hbits
    omega

/-- The attributes of the fixed size are those of an RSA key of 2048
bits. -/
theorem rsaBits_eq {op : KeyOperation} {slot : Slot} {version : Version}
    {a : Attributes} (h : op.attributes slot version = .ok a)
    (hsize : isRsa2048 a = true) : op.rsaBits = some 2048 := by
  cases op with
  | setAttributes b =>
      obtain rfl := Except.ok.inj h
      cases b with
      | rsa bits _ _ =>
          have hbits : bits = 2048 := by simpa [isRsa2048] using hsize
          rw [hbits]
          rfl
      | ec _ _ _ => cases hsize
  | generateRsa bits =>
      obtain rfl := Except.ok.inj h
      have hbits : bits = 2048 := by
        simpa [isRsa2048, Attributes.rsaOf] using hsize
      rw [hbits]
      rfl
  | generateEc curve =>
      obtain rfl := Except.ok.inj h
      cases hsize
  | putKey key =>
      cases key with
      | ec curve secret =>
          obtain rfl := Except.ok.inj h
          cases hsize
      | rsa key => exact congrArg some (@bits_of_fixed key slot _ a h hsize)

variable [Transport σ]

/-- Whatever an operation sends is a course of the attributes that it has
for the slot. -/
theorem run_ran (op : KeyOperation) (slot : Slot) (s : Session σ) :
    ∃ asked result t, Ran (op.run slot) s asked result t
      ∧ (asked = [] ∨ ∃ a, op.attributes slot s.version = .ok a
        ∧ Course s slot a asked) := by
  cases op with
  | setAttributes a =>
      obtain ⟨asked, result, t, hran, hwriting⟩ := setAttributes_ran slot a s
      exact ⟨asked, _, t, hran.map, Or.inr ⟨a, rfl, .writing hwriting⟩⟩
  | generateRsa bits =>
      obtain ⟨asked, result, t, hran, hcourse⟩ := generateRsa_ran slot bits s
      exact ⟨asked, _, t, hran.map, hcourse.imp id fun h => ⟨_, rfl, h⟩⟩
  | generateEc curve =>
      obtain ⟨asked, result, t, hran, hcourse⟩ := generateEc_ran slot curve s
      exact ⟨asked, _, t, hran.map, hcourse.imp id fun h => ⟨_, rfl, h⟩⟩
  | putKey key =>
      obtain ⟨asked, result, t, hran, hputting⟩ := putKey_ran slot key s
      refine ⟨asked, _, t, hran.map, ?_⟩
      cases hputting with
      | unreadable _ => exact Or.inl rfl
      | unprepared ha hprep => exact hprep.course.imp id fun h => ⟨_, ha, h⟩
      | unfit ha hprepared _ =>
          exact hprepared.course.imp id fun h => ⟨_, ha, h⟩
      | given ha hprepared _ hsent =>
          exact (hprepared.moves (movesKey_import _) hsent).imp id
            fun h => ⟨_, ha, h⟩

end KeyOperation

/-- Whatever the card answers, an operation on a key writes no algorithm but
to its own slot, and none but the one it was asked for, after finding it
on the list of that slot. A key is put in or made only right after the card
took the algorithm; or else algorithms are fixed, the key is an RSA key of
2048 bits, and no algorithm is written at all. -/
theorem attributes_written_as_listed [Transport σ] (op : KeyOperation)
    (slot : Slot) (s : Session σ) :
    ∃ asked result t, Ran (op.run slot) s asked result t
      ∧ t.link.frames
        = s.terminal.link.frames ++ asked.flatMap Request.frames
      ∧ (∀ request ∈ asked, ∀ frame ∈ request.frames,
        Terminal.Shows request.command frame)
      ∧ ∀ before request later, asked = before ++ request :: later →
        (∀ other, WritesAttributes request.command other →
          other = slot ∧ ∃ a, op.attributes slot s.version = .ok a
            ∧ request.command = putDataCommand slot.attributes a.bytes
            ∧ Listed s slot a before)
        ∧ (MovesKey request.command →
          (∃ listing write, before = listing ++ [write]
              ∧ WritesAttributes write.command slot ∧ write.Succeeded)
          ∨ (¬ Changeable s ∧ op.rsaBits = some 2048
              ∧ ∀ other ∈ asked, ∀ any,
                ¬ WritesAttributes other.command any)) := by
  obtain ⟨asked, result, t, hran, hcourse⟩ := op.run_ran slot s
  refine ⟨asked, result, t, hran, hran.asked.frames, hran.asked.shown, ?_⟩
  intro before request later hsplit
  rcases hcourse with rfl | ⟨a, ha, hcourse⟩
  · exact absurd hsplit (by simp)
  · have hfits := hcourse.inOrder before request later hsplit
    refine ⟨fun other hwrites => ?_, fun hmoves => ?_⟩
    · obtain ⟨hslot, hcommand, hlisted⟩ := hfits.written hwrites
      exact ⟨hslot, a, ha, hcommand, hlisted⟩
    · cases hfits.moved hmoves with
      | @written listing write hlisted hcommand hdone =>
          have hput := writesAttributes_put slot a.bytes
          rw [← hcommand] at hput
          exact Or.inl ⟨listing, write, rfl, hput, hdone⟩
      | fixed hfixed hsize =>
          refine Or.inr ⟨hfixed, KeyOperation.rsaBits_eq ha hsize, ?_⟩
          intro other hmem any hwrites
          -- an algorithm that is written was found on a list before
          obtain ⟨front, back, hother⟩ := List.append_of_mem hmem
          exact hfixed ((hcourse.inOrder front other back hother).written
            hwrites).2.2.changeable

end SmartCard.OpenPgp.Session
