/-
Cipher block chaining. Each plain block is masked with the cipher block
before it, the first with the initialisation vector. The chaining itself is
a recursion on blocks, for any block cipher; the two functions on octet
strings cut the string into whole blocks first.
-/
import SmartCard.Crypto.Block

namespace SmartCard.Cbc

/-- Chain encryption from `iv` over plain blocks. -/
def encryptBlocks (cipher : BlockCipher) : (iv : Block) → List Block → List Block
  | _, [] => []
  | iv, b :: bs =>
    let c := cipher.encrypt (Octets.xor b iv)
    c :: encryptBlocks cipher c bs

/-- Chain decryption from `iv` over cipher blocks. -/
def decryptBlocks (cipher : BlockCipher) : (iv : Block) → List Block → List Block
  | _, [] => []
  | iv, c :: cs => Octets.xor (cipher.decrypt c) iv :: decryptBlocks cipher c cs

/-- Encrypt a string of whole blocks. -/
def encrypt (cipher : BlockCipher) (iv : Block) (plain : Bytes) : Bytes :=
  Block.join (encryptBlocks cipher iv (Block.split plain))

/-- Decrypt a string of whole blocks. -/
def decrypt (cipher : BlockCipher) (iv : Block) (secret : Bytes) : Bytes :=
  Block.join (decryptBlocks cipher iv (Block.split secret))

end SmartCard.Cbc
