import Nullark.Lib.Bytes
import Nullark.Lib.Hex

/-! # Key derivation and authenticated encryption

The functions a client takes from its platform (`Crypto`), and what is documented of them
(`Documented`): encryption is a function of the key, the nonce, the associated data and the
plaintext, a ciphertext is one tag longer than its plaintext, and decryption accepts exactly the
ciphertexts that encryption returns.

* `decrypt_eq_some`: decryption inverts encryption.
* `documented_checksum`: a pair of functions that is what is documented. -/

namespace Nullark.Lib.Aead

open Nullark.Lib.Bytes

abbrev ByteString := List UInt8

/-- The bytes of a tag. -/
def tagLength : ℕ := 16

/-- **Key derivation and authenticated encryption.** -/
structure Crypto where
  deriveBits : (key salt info : ByteString) → ByteString
  encrypt : (key iv additionalData plaintext : ByteString) → ByteString
  decrypt : (key iv additionalData ciphertext : ByteString) → Option ByteString

/-- **The documented behaviour.** -/
structure Documented (c : Crypto) : Prop where
  decrypt_encrypt : ∀ key iv aad plaintext,
    c.decrypt key iv aad (c.encrypt key iv aad plaintext) = some plaintext
  encrypt_decrypt : ∀ key iv aad ciphertext plaintext,
    c.decrypt key iv aad ciphertext = some plaintext →
      ciphertext = c.encrypt key iv aad plaintext
  length_encrypt : ∀ key iv aad plaintext,
    (c.encrypt key iv aad plaintext).length = plaintext.length + tagLength

section
variable {c : Crypto} (hc : Documented c)
include hc

theorem decrypt_eq_some {key iv aad ciphertext plaintext : ByteString} :
    c.decrypt key iv aad ciphertext = some plaintext ↔
      ciphertext = c.encrypt key iv aad plaintext := by
  constructor
  · exact hc.encrypt_decrypt key iv aad ciphertext plaintext
  · rintro rfl
    exact hc.decrypt_encrypt key iv aad plaintext

end

/-! ### An instance -/

/-- The number of a text of bytes. -/
def checksum (bytes : ByteString) : ℕ := bytes.foldl (fun v b => v * 257 + b.toNat + 1) 0

def checksumTag (key iv aad plaintext : ByteString) : ByteString :=
  beBytes tagLength (checksum key + checksum iv + checksum aad + checksum plaintext)

/-- The tag behind the plaintext is a checksum of all that is authenticated. -/
def checksumCrypto (deriveBits : ByteString → ByteString → ByteString → ByteString) : Crypto where
  deriveBits := deriveBits
  encrypt key iv aad plaintext := plaintext ++ checksumTag key iv aad plaintext
  decrypt key iv aad ciphertext :=
    let plaintext := ciphertext.take (ciphertext.length - tagLength)
    if ciphertext = plaintext ++ checksumTag key iv aad plaintext then some plaintext else none

theorem length_checksumTag (key iv aad plaintext : ByteString) :
    (checksumTag key iv aad plaintext).length = tagLength := length_beBytes _ _

theorem documented_checksum
    (deriveBits : ByteString → ByteString → ByteString → ByteString) :
    Documented (checksumCrypto deriveBits) where
  decrypt_encrypt key iv aad plaintext := by
    have hlength : (plaintext ++ checksumTag key iv aad plaintext).length - tagLength =
        plaintext.length := by
      rw [List.length_append, length_checksumTag, Nat.add_sub_cancel]
    have htake : (plaintext ++ checksumTag key iv aad plaintext).take plaintext.length =
        plaintext := List.take_left
    simp only [checksumCrypto]
    rw [hlength, htake, if_pos rfl]
  encrypt_decrypt key iv aad ciphertext plaintext h := by
    simp only [checksumCrypto] at h ⊢
    split_ifs at h with heq
    have hplain := Option.some.inj h
    rw [hplain] at heq
    exact heq
  length_encrypt key iv aad plaintext := by
    simp only [checksumCrypto]
    rw [List.length_append, length_checksumTag]

/-- A ciphertext whose checksum differs does not open. -/
theorem checksum_decrypt_eq_none {deriveBits : ByteString → ByteString → ByteString → ByteString}
    {key key' iv aad aad' plaintext : ByteString}
    (h : (checksum key' + checksum aad') % 256 ^ tagLength ≠
      (checksum key + checksum aad) % 256 ^ tagLength) :
    (checksumCrypto deriveBits).decrypt key' iv aad'
      ((checksumCrypto deriveBits).encrypt key iv aad plaintext) = none := by
  have hlength : (plaintext ++ checksumTag key iv aad plaintext).length - tagLength =
      plaintext.length := by
    rw [List.length_append, length_checksumTag, Nat.add_sub_cancel]
  simp only [checksumCrypto]
  rw [hlength, List.take_left, if_neg]
  intro heq
  have htag := congrArg beValue (List.append_cancel_left heq)
  simp only [checksumTag, beValue_beBytes] at htag
  apply h
  have hleft : checksum key' + checksum iv + checksum aad' + checksum plaintext =
      checksum key' + checksum aad' + (checksum iv + checksum plaintext) := by ring
  have hright : checksum key + checksum iv + checksum aad + checksum plaintext =
      checksum key + checksum aad + (checksum iv + checksum plaintext) := by ring
  rw [hleft, hright] at htag
  exact (Nat.ModEq.add_right_cancel' _ htag).symm

end Nullark.Lib.Aead
