/-
What the padding of a new PIN lets through. A new PIN is sent as 64 octets,
its own and zeros behind them, and an authenticator takes the zeros at the
end for padding. So it finds the PIN that was meant unless that PIN ends in
zeros itself. The rules for PINs look at lengths only and let such a PIN
pass.

# What is left

In UTF-8 an octet zero is the character NUL and part of no other
(`encodeChar_ends`), so zeros at the end of the octets are NULs at the end
of the text: an authenticator stores the PIN without these (`bare`), and two
PINs are sent alike exactly where they differ in nothing else.
-/
import Mathlib.Data.List.DropRight
import SmartCard.Proofs.Fido.Requests
import SmartCard.Proofs.Zeros

namespace SmartCard

-- ========================================================= zeros in UTF-8

namespace Utf8

/-- Text is encoded character by character. -/
theorem encode_eq (text : String) :
    encode text = text.toList.flatMap String.utf8EncodeChar := by
  unfold encode
  rw [String.toUTF8, ← String.utf8Encode_toList]
  simp [List.utf8Encode]

/-- Different texts have different octets. -/
theorem encode_inj {a b : String} : encode a = encode b ↔ a = b := by
  refine ⟨fun h => ?_, congrArg encode⟩
  unfold encode at h
  exact String.toByteArray_inj.mp
    (ByteArray.ext (Array.toList_inj.mp h))

/-- The last octet of a character is zero only for NUL: those of longer
characters have their top bit set. -/
theorem encodeChar_ends {c : Char} (h : c ≠ '\x00') :
    ∃ front last, String.utf8EncodeChar c = front ++ [last] ∧ last ≠ 0 := by
  have hpos : c.val.toNat ≠ 0 := by
    intro hzero
    exact h (Char.ext (UInt32.toNat_inj.mp hzero))
  have hcontinued : ∀ n : Nat, UInt8.ofNat (n % 64 + 128) ≠ 0 := by
    intro n hn
    have := congrArg UInt8.toNat hn
    simp at this
    omega
  simp only [String.utf8EncodeChar]
  split_ifs with hone htwo hthree
  · refine ⟨[], _, rfl, fun hn => hpos ?_⟩
    have := congrArg UInt8.toNat hn
    simp only [UInt8.toNat_ofNat', UInt8.toNat_zero] at this
    omega
  · exact ⟨[_], _, rfl, hcontinued _⟩
  · exact ⟨[_, _], _, rfl, hcontinued _⟩
  · exact ⟨[_, _, _], _, rfl, hcontinued _⟩

/-- Zeros at the end of the octets are NULs at the end of the text. -/
theorem rdropWhile_encode (cs : List Char) :
    (cs.flatMap String.utf8EncodeChar).rdropWhile (· == 0)
      = (cs.rdropWhile (· == '\x00')).flatMap String.utf8EncodeChar := by
  induction cs using List.reverseRecOn with
  | nil => rfl
  | append_singleton cs c ih =>
      rw [List.flatMap_append, List.flatMap_singleton]
      by_cases hc : c = '\x00'
      · subst hc
        have hnul : String.utf8EncodeChar '\x00' = [0] := by decide
        rw [hnul, List.rdropWhile_concat_pos _ _ _ (by rfl), ih,
          List.rdropWhile_concat_pos _ _ _ (by rfl)]
      · obtain ⟨front, last, hlast, hne⟩ := encodeChar_ends hc
        rw [hlast, ← List.append_assoc,
          List.rdropWhile_concat_neg _ _ _ (by simpa using hne),
          List.rdropWhile_concat_neg _ _ _ (by simpa using hc),
          List.flatMap_append, List.flatMap_singleton, hlast,
          List.append_assoc]

end Utf8

-- ================================================================ PINs

namespace Fido.Pin

/-- What an authenticator finds in a padded PIN. -/
def unpadded (octets : Bytes) : Bytes :=
  octets.rdropWhile (· == 0)

/-- A PIN without the NULs at its end. -/
def bare (text : String) : String :=
  .ofList (text.toList.rdropWhile (· == '\x00'))

/-- The check accepts allowed PINs only. -/
theorem allowed_of_validate {text : String} (h : validate text = .ok ()) :
    Allowed text := by
  by_contra hnot
  obtain ⟨fault, hfault⟩ := validate_refused hnot
  cases hfault.symm.trans h

/-- NULs come off the text as zeros come off the octets. -/
theorem encode_bare (text : String) :
    Utf8.encode (bare text) = unpadded (Utf8.encode text) := by
  unfold bare unpadded
  rw [Utf8.encode_eq, Utf8.encode_eq, String.toList_ofList,
    Utf8.rdropWhile_encode]

/-- Nothing comes off a PIN that does not end in NUL. -/
theorem bare_eq_self_iff (text : String) :
    bare text = text ↔ text.toList.getLast? ≠ some '\x00' := by
  unfold bare
  rw [← String.toList_inj, String.toList_ofList, List.rdropWhile_eq_self_iff]
  by_cases hempty : text.toList = []
  · simp [hempty]
  · simp [List.getLast?_eq_some_getLast hempty, hempty]

/-- Padding does not matter to what is found. -/
theorem rdropWhile_zeros (octets : Bytes) (n : Nat) :
    unpadded (octets ++ List.replicate n 0) = unpadded octets := by
  induction n with
  | zero => simp
  | succ n ih =>
      rw [List.replicate_succ', ← List.append_assoc, ← ih]
      exact List.rdropWhile_concat_pos _ _ _ (by rfl)

/-- So what is found in a padded PIN is the PIN without NULs at its end. -/
theorem unpadded_buffer (text : String) :
    unpadded (buffer text) = Utf8.encode (bare text) := by
  unfold buffer
  rw [rdropWhile_zeros, encode_bare]

/-- Only zeros are left out of what is found. -/
theorem exists_zeros (octets : Bytes) :
    ∃ n, octets = unpadded octets ++ List.replicate n 0 := by
  obtain ⟨n, hback⟩ := Bytes.zeros_append_dropWhile octets.reverse
  refine ⟨n, ?_⟩
  calc octets = octets.reverse.reverse := octets.reverse_reverse.symm
    _ = (List.replicate n 0 ++ octets.reverse.dropWhile (· == 0)).reverse :=
      congrArg List.reverse hback
    _ = unpadded octets ++ List.replicate n 0 := by
      rw [List.reverse_append, List.reverse_replicate]
      rfl

/-- Octets of one length are told apart by what is found in them. -/
theorem eq_of_unpadded {a b : Bytes} (hlength : a.length = b.length)
    (h : unpadded a = unpadded b) : a = b := by
  obtain ⟨m, hm⟩ := exists_zeros a
  obtain ⟨n, hn⟩ := exists_zeros b
  have hcount : m = n := by
    have ha := congrArg List.length hm
    have hb := congrArg List.length hn
    simp only [List.length_append, List.length_replicate] at ha hb
    rw [h] at ha
    omega
  rw [hm, hn, h, hcount]

/-- Two PINs are sent alike exactly where they differ in nothing but NULs at
their ends. -/
theorem buffer_eq_iff {p q : String} (hp : Allowed p) (hq : Allowed q) :
    buffer p = buffer q ↔ bare p = bare q := by
  constructor
  · intro h
    rw [← Utf8.encode_inj, ← unpadded_buffer, ← unpadded_buffer, h]
  · intro h
    refine eq_of_unpadded ?_ ?_
    · rw [length_buffer hp, length_buffer hq]
    · rw [unpadded_buffer, unpadded_buffer, h]

/-- A PIN whose last character is NUL. -/
def EndsInNul (text : String) : Prop :=
  text.toList.getLast? = some '\x00'

theorem bare_eq_self {text : String} (h : ¬ EndsInNul text) :
    bare text = text :=
  (bare_eq_self_iff text).mpr h

/-- In a padded PIN an authenticator finds the PIN without the NULs at its
end: the whole of it, with the digest by which it is shown later, unless it
ends in NUL. The padded forms of two PINs are the same exactly where the
PINs are, up to such NULs. -/
theorem padding_loses_final_nuls {p : String} (hp : validate p = .ok ()) :
    ∃ octets, padded p = .ok octets ∧ octets.length = 64
      ∧ unpadded octets = Utf8.encode (bare p)
      ∧ (unpadded octets = Utf8.encode p ↔ ¬ EndsInNul p)
      ∧ (¬ EndsInNul p →
        hash p = .ok ((Sha256.digest (unpadded octets)).toList.take 16))
      ∧ ∀ q, validate q = .ok () →
        (padded q = .ok octets ↔ bare q = bare p)
          ∧ (¬ EndsInNul p → ¬ EndsInNul q → padded q = .ok octets → q = p) := by
  have hallowed := allowed_of_validate hp
  have hsame : ∀ q, validate q = .ok () →
      (padded q = .ok (buffer p) ↔ bare q = bare p) := by
    intro q hq
    have hother := allowed_of_validate hq
    rw [padded_allowed hother, Except.ok.injEq, buffer_eq_iff hother hallowed]
  refine ⟨buffer p, padded_allowed hallowed, length_buffer hallowed,
    unpadded_buffer p, ?_, fun hends => ?_, fun q hq => ⟨hsame q hq, ?_⟩⟩
  · rw [unpadded_buffer, Utf8.encode_inj, bare_eq_self_iff]
    rfl
  · rw [unpadded_buffer, bare_eq_self hends]
    exact hash_allowed hallowed
  · intro hends hother hpadded
    have hbare := (hsame q hq).mp hpadded
    rwa [bare_eq_self hends, bare_eq_self hother] at hbare

/-- A NUL inside a PIN is kept. -/
theorem padding_keeps_inner_nul :
    validate "12\x003" = .ok () ∧ ¬ EndsInNul "12\x003"
      ∧ ∃ octets, padded "12\x003" = .ok octets
        ∧ unpadded octets = Utf8.encode "12\x003"
        ∧ ∀ q, validate q = .ok () → ¬ EndsInNul q → padded q = .ok octets →
          q = "12\x003" := by
  have hvalid : validate "12\x003" = .ok () := by decide
  have hends : ¬ EndsInNul "12\x003" := by
    unfold EndsInNul
    decide
  obtain ⟨octets, hpadded, _, _, hfound, _, hothers⟩ :=
    padding_loses_final_nuls hvalid
  exact ⟨hvalid, hends, octets, hpadded, hfound.mpr hends,
    fun q hq hother => (hothers q hq).2 hends hother⟩

/-- One PIN and the same with NUL behind it are allowed, and sent alike. -/
theorem padding_hides_final_nul :
    ¬ ∀ p q octets, validate p = .ok () → validate q = .ok () →
      padded p = .ok octets → padded q = .ok octets → p = q := by
  intro h
  have halike := h "1234" "1234\x00" (buffer "1234") (by decide) (by decide)
    (by decide) (by decide)
  exact absurd halike (by decide)

end Fido.Pin

end SmartCard
