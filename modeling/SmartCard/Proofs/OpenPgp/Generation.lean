/-
Making RSA keys on devices that have no list of their own. For these the
session knows by the version which algorithms a slot accepts, and it makes
a key only after giving the slot one of them. The attributes of a new key
always have the plain format. So have those on the lists from version 4 on,
but older devices list their one size with the parts for the Chinese
remainder theorem.

# Where the two meet

All attributes that are known of a version have one format
(`mem_legacy`). It is the format of a new key exactly from version 4 on:
there every listed size is made (`Follows`), and below it none is, although
the list has it (`generateRsa_follows_list_unless_crt`).
-/
import SmartCard.Proofs.OpenPgp.LateRefusals

namespace SmartCard.OpenPgp

-- ===================================================== what is known of old

namespace AlgorithmInformation

/-- The format of the RSA keys that are known of a version. -/
def legacyFormat (v : Version) : RsaFormat :=
  if v.isBelow ⟨4, 0, 0⟩ then .crtWithModulus else .standard

/-- Only RSA is known of a version, in one format. -/
theorem mem_legacy {v : Version} {slot : Slot} {list : List Attributes}
    {a : Attributes} (h : legacy v slot = some list) (hmem : a ∈ list) :
    ∃ bits, a = .rsaOf bits (legacyFormat v) := by
  unfold legacyFormat
  cases slot with
  | att => cases h
  | sig | dec | aut =>
      simp only [legacy, Option.some.injEq] at h
      subst h
      cases hcrt : v.isBelow ⟨4, 0, 0⟩ with
      | true =>
          rw [hcrt] at hmem
          obtain rfl := List.mem_singleton.mp hmem
          exact ⟨_, rfl⟩
      | false =>
          simp only [hcrt, Bool.false_eq_true, if_false] at hmem ⊢
          split at hmem
          · obtain rfl := List.mem_singleton.mp hmem
            exact ⟨_, rfl⟩
          · simp only [List.mem_cons, List.not_mem_nil, or_false] at hmem
            rcases hmem with rfl | rfl | rfl <;> exact ⟨_, rfl⟩

/-- A size is listed with the usual exponent, in the format of the
version. -/
theorem mem_legacy_rsa {v : Version} {slot : Slot} {list : List Attributes}
    {bits exponentBits : UInt16} {format : RsaFormat}
    (h : legacy v slot = some list)
    (hmem : .rsa bits exponentBits format ∈ list) :
    .rsaOf bits (legacyFormat v) ∈ list ∧ format = legacyFormat v := by
  obtain ⟨other, hother⟩ := mem_legacy h hmem
  obtain ⟨rfl, rfl, rfl⟩ := Attributes.rsa.inj hother
  exact ⟨hmem, rfl⟩

end AlgorithmInformation

namespace Session

open AlgorithmInformation (legacyFormat mem_legacy mem_legacy_rsa)
open Terminal (Request)

variable {σ : Type} [Transport σ] {s : Session σ} {slot : Slot}
  {bits : UInt16} {list : List Attributes}

-- ============================================================== the course

/-- A key of a listed size is made. Nothing about it is unsupported: the
slot is given attributes of that size from its list, and once the card has
taken them the card is asked for the key. All that can go wrong is on the
card's side, or that the session is closed. -/
structure Follows (s : Session σ) (slot : Slot) (bits : UInt16)
    (list : List Attributes) (asked : List Request)
    (result : Except Error PublicKey) : Prop where
  supported : ∀ fault, result ≠ .error (.unsupported fault)
  answered : ∀ cause, result = .error (.card cause) →
    ∃ request ∈ asked, request.payload = .error cause
  quiet : s.stage = .closed → asked = []
  written : s.stage ≠ .closed →
    ∃ exponentBits format write later,
      .rsa bits exponentBits format ∈ list ∧ asked = write :: later
        ∧ write.command = putDataCommand slot.attributes
          (Attributes.rsa bits exponentBits format).bytes
        ∧ (write.Succeeded →
          ∃ make, later = [make] ∧ make.command = generateCommand slot)
        ∧ (¬ write.Succeeded → later = [])

/-- Reading a public key finds fault with the data and nothing else. -/
theorem parsePublicKey_error {answer : Bytes} {curve : Option Curve}
    {e : Error} (h : parsePublicKey answer curve = .error e) :
    (∀ fault, e ≠ .unsupported fault) ∧ ∀ cause, e ≠ .card cause := by
  have hread : (∃ fault, e = .tlv fault) ∨ ∃ fault, e = .invalidData fault := by
    unfold parsePublicKey at h
    split at h
    · exact Or.inl ⟨_, (Except.error.inj h).symm⟩
    · split at h
      · exact Or.inr ⟨_, (Except.error.inj h).symm⟩
      · split at h
        · next _ children _ _ =>
            cases hparts : PublicKey.ofParts (Tlv.topLevel children) curve with
            | ok key =>
                rw [hparts] at h
                cases h
            | error fault =>
                rw [hparts] at h
                exact Or.inr ⟨fault, (Except.error.inj h).symm⟩
        · exact Or.inr ⟨_, (Except.error.inj h).symm⟩
  rcases hread with ⟨fault, rfl⟩ | ⟨fault, rfl⟩ <;> simp

/-- On a slot that takes the attributes of the key, making one is a write
and the command that makes it. -/
theorem writeListed_generate_follows {info : AlgorithmInformation}
    (hslot : info slot = some list)
    (hmem : .rsaOf bits .standard ∈ list) :
    ∃ asked result t,
      Ran (writeListed slot (.rsaOf bits .standard) info >>= fun _ =>
        generate slot none) s asked result t
      ∧ Follows s slot bits list asked result := by
  obtain ⟨first, answer, mid, hput, hsent⟩ := perform_ran
    (putDataCommand slot.attributes (Attributes.rsaOf bits .standard).bytes) s
  rw [← writeListed_eq hslot hmem] at hput
  cases hsent with
  | closed hstage =>
      exact ⟨[], _, mid, hput.fails, by simp, by simp, fun _ => rfl,
        fun hopen => absurd hstage hopen⟩
  | @refused write cause hstage hcommand hcause =>
      refine ⟨[write], _, mid, hput.fails, by simp, ?_,
        fun hclosed => absurd hclosed hstage, fun _ => ?_⟩
      · rintro other hother
        obtain rfl := Error.card.inj (Except.error.inj hother)
        exact ⟨write, by simp, hcause⟩
      · refine ⟨17, .standard, write, [], hmem, rfl, hcommand, ?_, by simp⟩
        intro hdone
        obtain ⟨payload, hpayload⟩ := Request.payload_of_succeeded hdone
        cases hcause.symm.trans hpayload
  | @done write payload hstage hcommand hpayload =>
      have hdone := Request.succeeded_of_payload hpayload
      obtain ⟨second, key, t, hmake, hsent⟩ :=
        generate_ran slot none { s with terminal := mid }
      refine ⟨write :: second, _, t, hput.bind hmake, ?_⟩
      cases hsent with
      | closed hclosed => exact absurd hclosed hstage
      | @refused make cause _ hmakes hcause =>
          refine ⟨by simp [Except.bind], ?_,
            fun hclosed => absurd hclosed hstage,
            fun _ => ⟨17, .standard, write, [make], hmem, rfl, hcommand,
              fun _ => ⟨make, rfl, hmakes⟩, fun hnot => absurd hdone hnot⟩⟩
          rintro other hother
          obtain rfl := Error.card.inj (Except.error.inj hother)
          exact ⟨make, by simp, hcause⟩
      | @done make octets _ hmakes _ =>
          refine ⟨fun fault hresult => ?_, fun cause hresult => ?_,
            fun hclosed => absurd hclosed hstage,
            fun _ => ⟨17, .standard, write, [make], hmem, rfl, hcommand,
              fun _ => ⟨make, rfl, hmakes⟩, fun hnot => absurd hdone hnot⟩⟩
          · exact absurd rfl ((parsePublicKey_error hresult).1 fault)
          · exact absurd rfl ((parsePublicKey_error hresult).2 cause)

/-- What making an RSA key comes to where the list of the version
counts. -/
theorem generateRsa_known (hold : s.version.isBelow ⟨5, 2, 0⟩ = true)
    (hgenerates : Features.rsaGeneration.isSupportedBy s.version = true)
    (hchange : Changeable s) (slot : Slot) (bits : UInt16) :
    (generateRsa slot bits).run.run s
      = (writeListed slot (.rsaOf bits .standard) (.legacy s.version)
          >>= fun _ => generate slot none).run.run s := by
  have hrequire := run_require Features.rsaGeneration s
  unfold Feature.require at hrequire
  rw [if_pos hgenerates] at hrequire
  rw [generateRsa_eq, run_bind_ok hrequire, ExceptT.run_bind, ExceptT.run_bind,
    StateT.run_bind, StateT.run_bind, prepare_changeable hchange,
    setAttributes_eq, run_bind_ok (algorithmInformation_known hchange hold)]

/-- On devices without a list of their own, making an RSA key of a size that
is known of the version follows that list from version 4 on: the slot is
given attributes of the size, and then the key is made. Below version 4 the
size is refused as unsupported, and nothing is asked of the card. -/
theorem generateRsa_follows_list_unless_crt
    (hold : s.version.isBelow ⟨5, 2, 0⟩ = true)
    (hgenerates : Features.rsaGeneration.isSupportedBy s.version = true)
    (hchange : Changeable s) {info : AlgorithmInformation}
    {after : Session σ}
    (hinfo : algorithmInformation.run.run s = (.ok info, after))
    (hslot : info slot = some list) {exponentBits : UInt16}
    {format : RsaFormat} (hmem : .rsa bits exponentBits format ∈ list) :
    ∃ asked result t, Ran (generateRsa slot bits) s asked result t
      ∧ t.link.frames
        = s.terminal.link.frames ++ asked.flatMap Request.frames
      ∧ (∀ request ∈ asked, ∀ frame ∈ request.frames,
        Terminal.Shows request.command frame)
      ∧ (Follows s slot bits list asked result
        ↔ s.version.isBelow ⟨4, 0, 0⟩ = false)
      ∧ (s.version.isBelow ⟨4, 0, 0⟩ = true → asked = []
        ∧ result = .error (.unsupported
          (.attributes (.rsaOf bits .standard)))) := by
  rw [algorithmInformation_known hchange hold] at hinfo
  obtain ⟨rfl, -⟩ := Prod.mk.inj hinfo |>.imp_left Except.ok.inj
  obtain ⟨hlisted, rfl⟩ := mem_legacy_rsa hslot hmem
  have hrun := generateRsa_known hold hgenerates hchange slot bits
  cases hcrt : s.version.isBelow ⟨4, 0, 0⟩ with
  | false =>
      have hformat : legacyFormat s.version = .standard := by
        simp [legacyFormat, hcrt]
      rw [hformat] at hlisted
      obtain ⟨asked, result, t, hran, hfollows⟩ :=
        writeListed_generate_follows (s := s) hslot hlisted
      exact ⟨asked, result, t, hran.congr hrun, hran.asked.frames,
        hran.asked.shown, by simpa using hfollows, by simp⟩
  | true =>
      -- every entry of the list has the other format
      have hnot : .rsaOf bits .standard ∉ list := by
        intro hplain
        obtain ⟨other, hother⟩ := mem_legacy hslot hplain
        simp [legacyFormat, hcrt, Attributes.rsaOf] at hother
      have hrefused := Ran.none (hrun.trans (run_bind_error
        (f := fun _ => generate slot none)
        (writeListed_attributes hslot hnot s)))
      refine ⟨[], _, _, hrefused, hrefused.asked.frames,
        hrefused.asked.shown, ?_, by simp⟩
      simp only [Bool.true_eq_false, iff_false]
      exact fun hfollows => hfollows.supported _ rfl

/-- A card of version 4.3.7 is given RSA 4096 in the slot of authentication,
as it is listed. -/
theorem generateRsa_follows_list_4096 :
    ∃ asked result t,
      Ran (generateRsa .aut 4096) (willingCard ⟨4, 3, 7⟩) asked result t
        ∧ Follows (willingCard ⟨4, 3, 7⟩) .aut 4096
          [.rsaOf 2048 .standard, .rsaOf 3072 .standard,
            .rsaOf 4096 .standard] asked result := by
  have hchange : Changeable (willingCard ⟨4, 3, 7⟩) := by
    unfold Changeable
    decide
  have hslot : AlgorithmInformation.legacy ⟨4, 3, 7⟩ .aut
      = some [.rsaOf 2048 .standard, .rsaOf 3072 .standard,
        .rsaOf 4096 .standard] := rfl
  obtain ⟨asked, result, t, hran, _, _, hfollows, _⟩ :=
    generateRsa_follows_list_unless_crt (s := willingCard ⟨4, 3, 7⟩)
      (by decide) (by decide) hchange
      (algorithmInformation_known hchange (by decide)) hslot
      (by decide : Attributes.rsa 4096 17 .standard ∈ _)
  exact ⟨asked, result, t, hran, hfollows.mpr (by decide)⟩

/-- The one size that a card of version 3.4.3 lists is refused. -/
theorem generateRsa_refuses_listed :
    ¬ ∀ (s : Session ScriptedCard) (slot : Slot) (bits : UInt16)
        (info : AlgorithmInformation) (list : List Attributes)
        (exponentBits : UInt16) (format : RsaFormat)
        (fault : UnsupportedFault),
      s.version.isBelow ⟨5, 2, 0⟩ = true →
      Features.rsaGeneration.isSupportedBy s.version = true →
      Changeable s → (algorithmInformation.run.run s).1 = .ok info →
      info slot = some list → .rsa bits exponentBits format ∈ list →
      ((generateRsa slot bits).run.run s).1 ≠ .error (.unsupported fault) := by
  intro h
  have hchange : Changeable (willingCard ⟨3, 4, 3⟩) := by
    unfold Changeable
    decide
  exact h (willingCard ⟨3, 4, 3⟩) .sig 2048 _ [.rsaOf 2048 .crtWithModulus]
    17 .crtWithModulus (.attributes (.rsaOf 2048 .standard)) (by decide)
    (by decide) hchange rfl rfl (by decide) rfl

end Session

end SmartCard.OpenPgp
