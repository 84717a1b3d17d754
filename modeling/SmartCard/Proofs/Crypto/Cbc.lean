/-
A message that was padded and encrypted in chained blocks comes out again:
`Scp03.decrypt_encrypt`, from three round trips that are stated each for
itself. Octets cut into blocks are the blocks that they were joined from
(`Block.split_join`), decryption of a chain undoes encryption under any
cipher whose two halves undo each other (`Cbc.decrypt_encrypt`), and
padding comes off (`Padding.unpad_pad`).

# What is accepted

Not every string is a ciphertext. Padding comes off where a marker and at
most fifteen zeros end the string, and nowhere else
(`Padding.unpad_eq_some_iff`), so what decryption accepts is known in full
(`Scp03.decrypt_ok_iff`).

# Lengths

A ciphertext is as long as the padded message, which is the next length of
whole blocks above that of the message (`Scp03.length_encrypt`). That is
all that the framing of commands needs to know about encryption.
-/
import Mathlib.Data.Fintype.Card
import Mathlib.Data.Fintype.Pi
import SmartCard.Crypto.Cbc
import SmartCard.Crypto.Padding
import SmartCard.Proofs.Crypto.Aes
import SmartCard.Proofs.Zeros
import SmartCard.Scp03.Derivation

namespace SmartCard

-- ================================================================ blocks

namespace Block

/-- Joined blocks are sixteen octets each. -/
theorem length_join (blocks : List Block) :
    (join blocks).length = 16 * blocks.length := by
  induction blocks with
  | nil => rfl
  | cons block blocks ih =>
      unfold join at ih ⊢
      rw [List.flatMap_cons, List.length_append, ih, Vector.length_toList,
        List.length_cons]
      omega

/-- Cutting as many pieces as there are blocks off joined blocks gives the
blocks. -/
theorem pieces_join (blocks : List Block) :
    (Bytes.pieces 16 blocks.length (join blocks)).map (Octets.ofBytes 16)
      = blocks := by
  induction blocks with
  | nil => rfl
  | cons block blocks ih =>
      have hlen : block.toList.length = 16 := Vector.length_toList
      have htake : (join (block :: blocks)).take 16 = block.toList := by
        unfold join
        rw [List.flatMap_cons, List.take_left' hlen]
      have hdrop : (join (block :: blocks)).drop 16 = join blocks := by
        unfold join
        rw [List.flatMap_cons, List.drop_left' hlen]
      rw [List.length_cons, Bytes.pieces, htake, hdrop, List.map_cons,
        Octets.ofBytes_toList, ih]

/-- Joined blocks are cut into the same blocks. -/
theorem split_join (blocks : List Block) : split (join blocks) = blocks := by
  have hcount : (join blocks).length / size = blocks.length := by
    rw [length_join]
    exact Nat.mul_div_cancel_left _ (by decide)
  unfold split
  rw [hcount]
  exact pieces_join blocks

/-- What is left behind the last whole block is no block. -/
theorem length_split (b : Bytes) : (split b).length = b.length / 16 := by
  unfold split
  rw [List.length_map, Bytes.length_pieces]
  rfl

/-- Pieces of sixteen octets are joined to the string that they were cut
off. -/
theorem join_pieces {count : Nat} {b : Bytes}
    (h : 16 * count ≤ b.length) :
    join ((Bytes.pieces 16 count b).map (Octets.ofBytes 16))
      = b.take (16 * count) := by
  induction count generalizing b with
  | zero => simp [Bytes.pieces, join]
  | succ count ih =>
      have hhead : (b.take 16).length = 16 := by
        rw [List.length_take]
        omega
      have hrest : 16 * count ≤ (b.drop 16).length := by
        rw [List.length_drop]
        omega
      have ih := ih hrest
      unfold join at ih ⊢
      rw [Bytes.pieces, List.map_cons, List.flatMap_cons, ih,
        Octets.toList_ofBytes hhead, Nat.mul_succ, Nat.add_comm,
        List.take_add]

/-- A string of whole blocks is joined from what it is cut into. -/
theorem join_split {b : Bytes} (h : 16 ∣ b.length) :
    join (split b) = b := by
  have hwhole : 16 * (b.length / 16) = b.length := Nat.mul_div_cancel' h
  have hjoin := join_pieces (Nat.le_of_eq hwhole)
  rw [hwhole, List.take_length] at hjoin
  exact hjoin

end Block

-- ================================================================ ciphers

instance octets_finite (n : Nat) : Finite (Octets n) := by
  refine Finite.of_injective (fun (v : Octets n) (i : Fin n) => v[i].toFin) ?_
  intro v w h
  ext i hi
  have hi : v[i].toFin = w[i].toFin := congrFun h ⟨i, hi⟩
  exact congrArg Fin.val hi

/-- There are only so many blocks, so encryption undoes a decryption that
undoes it. -/
theorem BlockCipher.encrypt_decrypt {cipher : BlockCipher}
    (hcipher : ∀ b, cipher.decrypt (cipher.encrypt b) = b) (b : Block) :
    cipher.encrypt (cipher.decrypt b) = b := by
  have hleft : Function.LeftInverse cipher.decrypt cipher.encrypt := hcipher
  have honto := Finite.surjective_of_injective hleft.injective
  exact hleft.rightInverse_of_surjective honto b

-- =============================================================== chaining

namespace Cbc

variable {cipher : BlockCipher}

/-- Decrypting a chain undoes encrypting it, from any vector. -/
theorem decryptBlocks_encryptBlocks
    (hcipher : ∀ b, cipher.decrypt (cipher.encrypt b) = b) (iv : Block)
    (blocks : List Block) :
    decryptBlocks cipher iv (encryptBlocks cipher iv blocks) = blocks := by
  induction blocks generalizing iv with
  | nil => rfl
  | cons block blocks ih =>
      rw [encryptBlocks, decryptBlocks, hcipher, Octets.xor_xor_cancel, ih]

theorem length_encryptBlocks (cipher : BlockCipher) (iv : Block)
    (blocks : List Block) :
    (encryptBlocks cipher iv blocks).length = blocks.length := by
  induction blocks generalizing iv with
  | nil => rfl
  | cons block blocks ih =>
      rw [encryptBlocks, List.length_cons, ih, List.length_cons]

/-- A string of whole blocks comes out again. -/
theorem decrypt_encrypt
    (hcipher : ∀ b, cipher.decrypt (cipher.encrypt b) = b) (iv : Block)
    {plain : Bytes} (h : 16 ∣ plain.length) :
    decrypt cipher iv (encrypt cipher iv plain) = plain := by
  unfold decrypt encrypt
  rw [Block.split_join, decryptBlocks_encryptBlocks hcipher,
    Block.join_split h]

/-- Encrypting a chain undoes decrypting it, from the same vector. -/
theorem encryptBlocks_decryptBlocks
    (hcipher : ∀ b, cipher.decrypt (cipher.encrypt b) = b) (iv : Block)
    (blocks : List Block) :
    encryptBlocks cipher iv (decryptBlocks cipher iv blocks) = blocks := by
  induction blocks generalizing iv with
  | nil => rfl
  | cons block blocks ih =>
      rw [decryptBlocks, encryptBlocks, Octets.xor_xor_cancel,
        BlockCipher.encrypt_decrypt hcipher, ih]

/-- A ciphertext of whole blocks comes out again. -/
theorem encrypt_decrypt
    (hcipher : ∀ b, cipher.decrypt (cipher.encrypt b) = b) (iv : Block)
    {secret : Bytes} (h : 16 ∣ secret.length) :
    encrypt cipher iv (decrypt cipher iv secret) = secret := by
  unfold decrypt encrypt
  rw [Block.split_join, encryptBlocks_decryptBlocks hcipher,
    Block.join_split h]

theorem length_decryptBlocks (cipher : BlockCipher) (iv : Block)
    (blocks : List Block) :
    (decryptBlocks cipher iv blocks).length = blocks.length := by
  induction blocks generalizing iv with
  | nil => rfl
  | cons block blocks ih =>
      rw [decryptBlocks, List.length_cons, ih, List.length_cons]

/-- Decryption keeps the length of whole blocks. -/
theorem length_decrypt (cipher : BlockCipher) (iv : Block)
    (secret : Bytes) :
    (decrypt cipher iv secret).length = 16 * (secret.length / 16) := by
  unfold decrypt
  rw [Block.length_join, length_decryptBlocks, Block.length_split]

/-- Encryption keeps the length of whole blocks. -/
theorem length_encrypt (cipher : BlockCipher) (iv : Block) (plain : Bytes) :
    (encrypt cipher iv plain).length = 16 * (plain.length / 16) := by
  unfold encrypt
  rw [Block.length_join, length_encryptBlocks, Block.length_split]

end Cbc

-- ================================================================ padding

namespace Padding

/-- Padding fills up to whole blocks, and adds one to what is full. -/
theorem length_pad (message : Bytes) :
    (pad message).length = 16 * (message.length / 16 + 1) := by
  unfold pad
  rw [List.length_append, List.length_cons, List.length_replicate]
  omega

/-- The zeros at the end of a string are passed over from behind. -/
theorem dropWhile_zeros (count : Nat) (rest : Bytes) :
    (List.replicate count 0 ++ 0x80 :: rest).dropWhile (· == 0)
      = 0x80 :: rest := by
  induction count with
  | zero => rfl
  | succ count ih =>
      rw [List.replicate_succ, List.cons_append, List.dropWhile_cons]
      exact ih

/-- Padding comes off exactly where the marker and at most fifteen zeros
end the string, and what comes before them is left. -/
theorem unpad_eq_some_iff {padded message : Bytes}
    (hlen : 16 ≤ padded.length) :
    unpad? padded = some message
      ↔ ∃ count ≤ 15, padded = message ++ 0x80 :: List.replicate count 0 := by
  unfold unpad?
  constructor
  · intro h
    obtain ⟨count, hback⟩ := Bytes.zeros_append_dropWhile
      (padded.drop (padded.length - 16)).reverse
    simp only [] at h
    split at h
    · next marker front hrest =>
      split at h
      · next hmarker =>
        injection h with h
        rw [hrest, hmarker] at hback
        -- turned round again, the zeros found from behind are at the end
        have hlast : padded.drop (padded.length - 16)
            = front.reverse ++ 0x80 :: List.replicate count 0 := by
          rw [← List.reverse_reverse (padded.drop _), hback]
          simp
        have hsize := congrArg List.length hlast
        simp only [List.length_drop, List.length_append,
          List.length_reverse, List.length_cons,
          List.length_replicate] at hsize
        refine ⟨count, by omega, ?_⟩
        rw [← h, List.append_assoc, ← hlast, List.take_append_drop]
      · cases h
    · cases h
  · rintro ⟨count, hcount, rfl⟩
    have hinside : (message ++ 0x80 :: List.replicate count 0).length - 16
        ≤ message.length := by
      rw [List.length_append, List.length_cons, List.length_replicate]
      omega
    generalize (message ++ 0x80 :: List.replicate count 0).length - 16
      = start at hinside
    have hback : ((message ++ 0x80 :: List.replicate count 0).drop
          start).reverse
        = List.replicate count 0 ++ 0x80 :: (message.drop start).reverse := by
      rw [List.drop_append_of_le_length hinside]
      simp
    simp only [hback, dropWhile_zeros, if_true,
      List.take_append_of_le_length hinside, List.reverse_reverse,
      List.take_append_drop]

/-- Padding comes off again. -/
theorem unpad_pad (message : Bytes) :
    unpad? (pad message) = some message := by
  have hlen := length_pad message
  exact (unpad_eq_some_iff (by omega)).mpr
    ⟨15 - message.length % 16, by omega, rfl⟩

end Padding

-- =============================================================== messages

namespace Scp03

/-- A ciphertext is the message and its padding long. -/
theorem length_encrypt (key : Key) (iv : Block) (plain : Bytes) :
    (encrypt key iv plain).length = 16 * (plain.length / 16 + 1) := by
  unfold encrypt
  rw [Cbc.length_encrypt, Padding.length_pad]
  omega

/-- No ciphertext is empty, not even that of nothing. -/
theorem encrypt_ne_nil (key : Key) (iv : Block) (plain : Bytes) :
    encrypt key iv plain ≠ [] := by
  intro hnil
  have hlen := length_encrypt key iv plain
  rw [hnil, List.length_nil] at hlen
  omega

/-- A string is looked at where it is whole blocks, at least one. -/
theorem partial_iff (secret : Bytes) :
    (decide (secret = []) || secret.length % 16 != 0) = true
      ↔ ¬ (secret ≠ [] ∧ 16 ∣ secret.length) := by
  rw [Nat.dvd_iff_mod_eq_zero]
  by_cases hempty : secret = []
  · simp [hempty]
  · simp [hempty]

/-- Whole blocks, at least one, are decrypted, and their padding taken
off. -/
theorem decrypt_whole {key : Key} {iv : Block} {secret : Bytes}
    (h : secret ≠ [] ∧ 16 ∣ secret.length) :
    decrypt key iv secret
      = match Padding.unpad? (Cbc.decrypt (Aes.cipher128 key) iv secret) with
        | some plain => .ok plain
        | none => .error (.security .badPadding) := by
  unfold decrypt
  exact if_neg fun hpartial => (partial_iff secret).mp hpartial h

/-- Anything else is not. -/
theorem decrypt_partial {key : Key} {iv : Block} {secret : Bytes}
    (h : ¬ (secret ≠ [] ∧ 16 ∣ secret.length)) :
    decrypt key iv secret = .error (.security .partialBlock) := by
  unfold decrypt
  exact if_pos ((partial_iff secret).mpr h)

/-- A message is decrypted exactly from whole blocks, at least one, that
come to the message and its padding under the cipher. -/
theorem decrypt_ok_iff {key : Key} {iv : Block} {secret plain : Bytes} :
    decrypt key iv secret = .ok plain
      ↔ secret ≠ [] ∧ 16 ∣ secret.length
        ∧ ∃ count ≤ 15, Cbc.decrypt (Aes.cipher128 key) iv secret
          = plain ++ 0x80 :: List.replicate count 0 := by
  by_cases hwhole : secret ≠ [] ∧ 16 ∣ secret.length
  · have hpos := List.length_pos_iff.mpr hwhole.1
    have hlen : 16 ≤ (Cbc.decrypt (Aes.cipher128 key) iv secret).length := by
      rw [Cbc.length_decrypt]
      omega
    rw [decrypt_whole hwhole, ← Padding.unpad_eq_some_iff hlen]
    cases hunpad : Padding.unpad? (Cbc.decrypt (Aes.cipher128 key) iv
      secret) with
    | none => simp
    | some found => simp [hwhole]
  · rw [decrypt_partial hwhole]
    constructor
    · intro h
      cases h
    · rintro ⟨hne, hdvd, -⟩
      exact absurd ⟨hne, hdvd⟩ hwhole

/-- A message comes out of its ciphertext, whatever its length. -/
theorem decrypt_encrypt (key : Key) (iv : Block) (plain : Bytes) :
    decrypt key iv (encrypt key iv plain) = .ok plain := by
  have hwhole : 16 ∣ (Padding.pad plain).length := by
    rw [Padding.length_pad]
    exact Nat.dvd_mul_right _ _
  have hplain : Cbc.decrypt (Aes.cipher128 key) iv (encrypt key iv plain)
      = Padding.pad plain :=
    Cbc.decrypt_encrypt (Aes.cipher128_inverse key) iv hwhole
  have hblocks : 16 ∣ (encrypt key iv plain).length := by
    rw [length_encrypt]
    exact Nat.dvd_mul_right _ _
  rw [decrypt_whole ⟨encrypt_ne_nil key iv plain, hblocks⟩, hplain,
    Padding.unpad_pad]

/-- What can not be decrypted is a breach of the channel. -/
theorem decrypt_error {key : Key} {iv : Block} {secret : Bytes} {e : Error}
    (h : decrypt key iv secret = .error e) :
    ∃ fault, e = .security fault := by
  unfold decrypt at h
  split at h
  · injection h with h
    exact ⟨_, h.symm⟩
  · split at h
    · cases h
    · injection h with h
      exact ⟨_, h.symm⟩

end Scp03

end SmartCard
