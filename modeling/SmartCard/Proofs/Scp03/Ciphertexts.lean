/-
Which octets are ciphertexts of the channel. Under a key and a vector every
message has one ciphertext, no two messages share it, and decryption takes
exactly the strings that are the ciphertext of some message
(`decrypt_inverts_encrypt`). There is no second string for a message, so
nothing can be changed in a ciphertext and still be read as the same.

# Why nothing else is accepted

Two things could let in more. The cipher could decrypt blocks that it never
encrypts to; it does not, since there are finitely many blocks
(`BlockCipher.encrypt_decrypt`). And padding could come off that was never
put on. It is looked for in the last block only, where a marker and the
zeros behind it leave one message of that length, and the padding of that
message is what was found (`Padding.pad_eq`).
-/
import SmartCard.Proofs.Crypto.Cbc

namespace SmartCard

-- ================================================================ padding

namespace Padding

/-- Some octets, the marker, and zeros to the end. -/
def Marked (last : Bytes) : Prop :=
  ∃ front count, last = front ++ 0x80 :: List.replicate count 0

/-- In whole blocks, at most fifteen zeros behind a marker are those that
padding puts there. -/
theorem pad_eq {message : Bytes} {count : Nat} (hcount : count ≤ 15)
    (hwhole : 16 ∣ (message ++ 0x80 :: List.replicate count 0).length) :
    pad message = message ++ 0x80 :: List.replicate count 0 := by
  have hfill : 15 - message.length % 16 = count := by
    simp only [List.length_append, List.length_cons, List.length_replicate]
      at hwhole
    omega
  rw [pad, hfill]

/-- No padding comes off exactly where the last block is not marked. -/
theorem unpad_eq_none_iff {padded : Bytes} (hlen : 16 ≤ padded.length) :
    unpad? padded = none ↔ ¬ Marked (padded.drop (padded.length - 16)) := by
  rw [Option.eq_none_iff_forall_ne_some, ← not_exists]
  refine not_congr ⟨?_, ?_⟩
  · rintro ⟨message, h⟩
    obtain ⟨count, hcount, hpadded⟩ := (unpad_eq_some_iff hlen).mp h
    have hinside : padded.length - 16 ≤ message.length := by
      rw [hpadded]
      simp only [List.length_append, List.length_cons, List.length_replicate]
      omega
    refine ⟨message.drop (padded.length - 16), count, ?_⟩
    generalize padded.length - 16 = start at hinside
    rw [hpadded, List.drop_append_of_le_length hinside]
  · rintro ⟨front, count, hlast⟩
    have hsize := congrArg List.length hlast
    simp only [List.length_drop, List.length_append, List.length_cons,
      List.length_replicate] at hsize
    refine ⟨padded.take (padded.length - 16) ++ front,
      (unpad_eq_some_iff hlen).mpr ⟨count, by omega, ?_⟩⟩
    rw [List.append_assoc, ← hlast, List.take_append_drop]

end Padding

namespace Scp03

-- ============================================================ ciphertexts

/-- What is decrypted is encrypted to the same string again. -/
theorem encrypt_of_decrypt {key : Key} {iv : Block} {secret plain : Bytes}
    (h : decrypt key iv secret = .ok plain) : encrypt key iv plain = secret := by
  obtain ⟨-, hwhole, count, hcount, hplain⟩ := decrypt_ok_iff.mp h
  have hlen := Cbc.length_decrypt (Aes.cipher128 key) iv secret
  rw [hplain] at hlen
  have hpad := Padding.pad_eq hcount (hlen ▸ Nat.dvd_mul_right _ _)
  rw [encrypt, hpad, ← hplain,
    Cbc.encrypt_decrypt (Aes.cipher128_inverse key) iv hwhole]

/-- A string is refused where it is not whole blocks, at least one, and
where the last of them decrypts to an unmarked one. -/
theorem decrypt_error_iff {key : Key} {iv : Block} {secret : Bytes} :
    (∃ fault, decrypt key iv secret = .error (.security fault))
      ↔ secret = [] ∨ ¬ 16 ∣ secret.length
        ∨ ¬ Padding.Marked ((Cbc.decrypt (Aes.cipher128 key) iv secret).drop
          (secret.length - 16)) := by
  by_cases hwhole : secret ≠ [] ∧ 16 ∣ secret.length
  · obtain ⟨hne, hdvd⟩ := hwhole
    have hpos := List.length_pos_iff.mpr hne
    have hsame : (Cbc.decrypt (Aes.cipher128 key) iv secret).length
        = secret.length := by
      rw [Cbc.length_decrypt, Nat.mul_div_cancel' hdvd]
    have hunpad := @Padding.unpad_eq_none_iff
      (Cbc.decrypt (Aes.cipher128 key) iv secret) (by omega)
    rw [hsame] at hunpad
    simp only [hne, hdvd, not_true_eq_false, false_or, ← hunpad]
    rw [decrypt_whole ⟨hne, hdvd⟩]
    cases Padding.unpad? (Cbc.decrypt (Aes.cipher128 key) iv secret) with
    | none => simp
    | some plain => simp
  · rw [decrypt_partial hwhole]
    by_cases hempty : secret = []
    · simp [hempty]
    · simp [show ¬ 16 ∣ secret.length from fun h => hwhole ⟨hempty, h⟩]

/-- Encryption under a key and a vector is one to one, onto exactly what
decryption accepts. A ciphertext is the next number of whole blocks above
its message; and a string that is no ciphertext, which is one that is empty,
or not whole blocks, or whose last block decrypts to one without a marker
followed by zeros only, is a breach of the channel. -/
theorem decrypt_inverts_encrypt (key : Key) (iv : Block) :
    (∀ secret plain,
      decrypt key iv secret = .ok plain ↔ encrypt key iv plain = secret)
      ∧ (∀ plain, (encrypt key iv plain).length = (plain.length / 16 + 1) * 16)
      ∧ ∀ secret,
        ((∃ fault, decrypt key iv secret = .error (.security fault))
            ↔ ∀ plain, encrypt key iv plain ≠ secret)
          ∧ ((∃ fault, decrypt key iv secret = .error (.security fault))
            ↔ secret = [] ∨ ¬ 16 ∣ secret.length
              ∨ ¬ Padding.Marked ((Cbc.decrypt (Aes.cipher128 key) iv secret).drop
                (secret.length - 16))) := by
  have haccepted : ∀ secret plain,
      decrypt key iv secret = .ok plain ↔ encrypt key iv plain = secret := by
    refine fun secret plain => ⟨encrypt_of_decrypt, ?_⟩
    rintro rfl
    exact decrypt_encrypt key iv plain
  refine ⟨haccepted, fun plain => ?_, fun secret => ⟨?_, decrypt_error_iff⟩⟩
  · rw [length_encrypt, Nat.mul_comm]
  · simp only [ne_eq, ← haccepted]
    cases hread : decrypt key iv secret with
    | ok plain => simp
    | error e =>
        obtain ⟨fault, rfl⟩ := decrypt_error hread
        simp

end Scp03

end SmartCard
