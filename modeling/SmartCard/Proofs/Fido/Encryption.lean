/-
How the two protocols encrypt, and that it can be undone both ways. A
ciphertext is the chained blocks of its message, behind the vector where the
protocol sends one. Everything of whole blocks is encrypted and nothing else
is, everything of whole blocks behind a vector is decrypted and nothing else
is, and each undoes the other (`AuthProtocol.encryption_invertible`).

# Two protocols, one form

The protocols differ in the vector and in whether it is sent, and in no
other way. `front` is what stands before the blocks and `vector` what they
are chained from; with these, each function is described once for both
protocols (`encrypt_ok_iff`, `decrypt_ok_iff`), and the laws never look at
which protocol it is.
-/
import SmartCard.Fido.AuthProtocol
import SmartCard.Proofs.Crypto.Cbc

namespace SmartCard.Fido.AuthProtocol

/-- What stands in front of the blocks of a ciphertext. -/
def front (protocol : AuthProtocol) (iv : Block) : Bytes :=
  match protocol with
  | one => []
  | two => iv.toList

/-- How long that is. -/
def overhead : AuthProtocol → Nat
  | one => 0
  | two => 16

/-- The vector that the blocks are chained from. -/
def vector (protocol : AuthProtocol) (iv : Block) : Block :=
  match protocol with
  | one => Octets.zero 16
  | two => iv

/-- The vector that a ciphertext was made with, as it shows. -/
def vectorOf (protocol : AuthProtocol) (ciphertext : Bytes) : Block :=
  match protocol with
  | one => Octets.zero 16
  | two => Octets.ofBytes 16 ciphertext

section Front

variable (protocol : AuthProtocol) (iv : Block)

theorem length_front : (protocol.front iv).length = protocol.overhead := by
  cases protocol with
  | one => rfl
  | two => exact Vector.length_toList

theorem sixteen_dvd_overhead : 16 ∣ protocol.overhead := by
  cases protocol with
  | one => decide
  | two => decide

/-- The octets of a vector are its own, whatever stands behind them. -/
theorem ofBytes_toList_append {n : Nat} (v : Octets n) (rest : Bytes) :
    Octets.ofBytes n (v.toList ++ rest) = v := by
  ext i hi
  have hlt : i < v.toList.length := by
    rw [Vector.length_toList]
    exact hi
  simp only [Octets.ofBytes, Vector.getElem_ofFn, List.getD_eq_getElem?_getD,
    List.getElem?_append_left hlt]
  simp [hi]

/-- A ciphertext shows the vector that its blocks are chained from. -/
theorem vectorOf_front (blocks : Bytes) :
    protocol.vectorOf (protocol.front iv ++ blocks) = protocol.vector iv := by
  cases protocol with
  | one => rfl
  | two => exact ofBytes_toList_append iv blocks

/-- What a ciphertext begins with is the front of the vector that it
shows. -/
theorem front_vectorOf {ciphertext : Bytes}
    (h : protocol.overhead ≤ ciphertext.length) :
    protocol.front (protocol.vectorOf ciphertext)
      = ciphertext.take protocol.overhead := by
  cases protocol with
  | one => rfl
  | two =>
      have hlen : (ciphertext.take 16).length = 16 := by
        rw [List.length_take]
        exact Nat.min_eq_left h
      have hblock := ofBytes_toList_append (Octets.ofBytes 16 (ciphertext.take 16))
        (ciphertext.drop 16)
      rw [Octets.toList_ofBytes hlen, List.take_append_drop] at hblock
      show (Octets.ofBytes 16 ciphertext).toList = ciphertext.take 16
      rw [hblock, Octets.toList_ofBytes hlen]

theorem vector_vectorOf (ciphertext : Bytes) :
    protocol.vector (protocol.vectorOf ciphertext)
      = protocol.vectorOf ciphertext := by
  cases protocol with
  | one => rfl
  | two => rfl

end Front

variable {protocol : AuthProtocol} {iv : Block} {secret : SharedSecret}
  {message ciphertext : Bytes}

-- ============================================================ both forms

theorem encrypt_ok_iff :
    protocol.encrypt iv secret message = .ok ciphertext
      ↔ 16 ∣ message.length ∧ ciphertext = protocol.front iv
        ++ Cbc.encrypt (Aes.cipher256 secret.encryption) (protocol.vector iv)
          message := by
  rw [Nat.dvd_iff_mod_eq_zero]
  unfold encrypt
  by_cases hwhole : message.length % 16 = 0
  · rw [if_neg (not_not.mpr hwhole)]
    cases protocol with
    | one => simp [hwhole, front, vector, eq_comm]
    | two => simp [hwhole, front, vector, eq_comm]
  · simp [hwhole]

theorem decrypt_ok_iff :
    protocol.decrypt secret ciphertext = .ok message
      ↔ protocol.overhead ≤ ciphertext.length ∧ 16 ∣ ciphertext.length
        ∧ message = Cbc.decrypt (Aes.cipher256 secret.encryption)
          (protocol.vectorOf ciphertext)
          (ciphertext.drop protocol.overhead) := by
  have hfrom : ∀ start blocks, decryptFrom start secret blocks = .ok message
      ↔ 16 ∣ blocks.length
        ∧ message = Cbc.decrypt (Aes.cipher256 secret.encryption) start blocks := by
    intro start blocks
    rw [Nat.dvd_iff_mod_eq_zero]
    unfold decryptFrom
    by_cases hwhole : blocks.length % 16 = 0
    · simp [hwhole, eq_comm]
    · simp [hwhole]
  cases protocol with
  | one => simp [decrypt, overhead, vectorOf, hfrom]
  | two =>
      simp only [decrypt, overhead, vectorOf]
      by_cases hshort : ciphertext.length < 16
      · simp [hshort]
      · have hlong : 16 ≤ ciphertext.length := Nat.not_lt.mp hshort
        have hrest : 16 ∣ (ciphertext.drop 16).length ↔ 16 ∣ ciphertext.length := by
          rw [List.length_drop]
          omega
        rw [if_neg hshort, hfrom, hrest]
        simp only [hlong, true_and]

-- ============================================================== both ways

/-- A message comes out of its ciphertext. -/
theorem decrypt_encrypt (h : protocol.encrypt iv secret message = .ok ciphertext) :
    protocol.decrypt secret ciphertext = .ok message := by
  obtain ⟨hwhole, rfl⟩ := encrypt_ok_iff.mp h
  have hfront := protocol.length_front iv
  have hblocks := Cbc.length_encrypt (Aes.cipher256 secret.encryption)
    (protocol.vector iv) message
  have hdvd := protocol.sixteen_dvd_overhead
  refine decrypt_ok_iff.mpr ⟨?_, ?_, ?_⟩
  · rw [List.length_append]
    omega
  · rw [List.length_append, hfront, hblocks]
    exact Nat.dvd_add hdvd (Nat.dvd_mul_right _ _)
  · rw [vectorOf_front, List.drop_left' hfront,
      Cbc.decrypt_encrypt (Aes.cipher256_inverse _) _ hwhole]

/-- A ciphertext comes out of its message, under the vector that it
shows. -/
theorem encrypt_decrypt (h : protocol.decrypt secret ciphertext = .ok message) :
    protocol.encrypt (protocol.vectorOf ciphertext) secret message
      = .ok ciphertext := by
  obtain ⟨hlong, hdvd, rfl⟩ := decrypt_ok_iff.mp h
  have hwhole : 16 ∣ (ciphertext.drop protocol.overhead).length := by
    rw [List.length_drop]
    exact Nat.dvd_sub hdvd protocol.sixteen_dvd_overhead
  refine encrypt_ok_iff.mpr ⟨?_, ?_⟩
  · rw [Cbc.length_decrypt]
    exact Nat.dvd_mul_right _ _
  · rw [vector_vectorOf, front_vectorOf _ hlong,
      Cbc.encrypt_decrypt (Aes.cipher256_inverse _) _ hwhole,
      List.take_append_drop]

/-- Encryption takes whole blocks and nothing else. The ciphertext is as long
as the message, with the vector in front of it where the protocol sends one,
and decrypts to the message. Decryption takes whole blocks, the vector among
them, and nothing else; what it returns is encrypted, under the vector of
the string, to the string. -/
theorem encryption_invertible (protocol : AuthProtocol) (secret : SharedSecret) :
    (∀ iv message,
      ((∃ ciphertext, protocol.encrypt iv secret message = .ok ciphertext)
          ↔ 16 ∣ message.length)
        ∧ ∀ ciphertext, protocol.encrypt iv secret message = .ok ciphertext →
          ciphertext.length = protocol.overhead + message.length
            ∧ protocol.front iv <+: ciphertext
            ∧ protocol.decrypt secret ciphertext = .ok message)
      ∧ ∀ ciphertext,
        ((∃ message, protocol.decrypt secret ciphertext = .ok message)
            ↔ 16 ∣ ciphertext.length ∧ protocol.overhead ≤ ciphertext.length)
          ∧ ∀ message, protocol.decrypt secret ciphertext = .ok message →
            protocol.encrypt (protocol.vectorOf ciphertext) secret message
              = .ok ciphertext := by
  refine ⟨fun iv message => ⟨?_, fun ciphertext h => ⟨?_, ?_, decrypt_encrypt h⟩⟩,
    fun ciphertext => ⟨?_, fun message h => encrypt_decrypt h⟩⟩
  · simp [encrypt_ok_iff]
  · obtain ⟨hwhole, rfl⟩ := encrypt_ok_iff.mp h
    rw [List.length_append, length_front, Cbc.length_encrypt,
      Nat.mul_div_cancel' hwhole]
  · obtain ⟨-, rfl⟩ := encrypt_ok_iff.mp h
    exact List.prefix_append _ _
  · simp [decrypt_ok_iff, and_comm]

end SmartCard.Fido.AuthProtocol
