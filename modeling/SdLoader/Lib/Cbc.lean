import Mathlib.Algebra.Order.Ring.Nat
import Mathlib.Data.Nat.Notation
import Mathlib.Data.List.Basic
import Mathlib.Tactic.Common

/-!
# Cipher block chaining

A block cipher `E` with inverse `D`, and an operation `xor` on blocks that undoes itself.

* `Cbc.encrypt`, `Cbc.decrypt` — the chain from an initialisation vector.
* `decrypt_encrypt`, `encrypt_decrypt` — each undoes the other.
* `encrypt_append`, `decrypt_append` — a chain goes on from the last block of ciphertext.
-/

set_option autoImplicit false

namespace Cbc

universe u

variable {B : Type u} (xor : B → B → B) (E D : B → B)

/-- Encryption from the initialisation vector `iv`. -/
def encrypt : B → List B → List B
  | _, [] => []
  | iv, p :: ps => E (xor p iv) :: encrypt (E (xor p iv)) ps

/-- Decryption from the initialisation vector `iv`. -/
def decrypt : B → List B → List B
  | _, [] => []
  | iv, c :: cs => xor (D c) iv :: decrypt c cs

variable {xor E D}

@[simp] theorem length_encrypt (iv : B) (ps : List B) :
    (encrypt xor E iv ps).length = ps.length := by
  induction ps generalizing iv with
  | nil => rfl
  | cons p ps ih => rw [encrypt, List.length_cons, List.length_cons, ih]

@[simp] theorem length_decrypt (iv : B) (cs : List B) :
    (decrypt xor D iv cs).length = cs.length := by
  induction cs generalizing iv with
  | nil => rfl
  | cons c cs ih => rw [decrypt, List.length_cons, List.length_cons, ih]

/-- **Decrypting what has been encrypted.** -/
theorem decrypt_encrypt (hxor : ∀ a b, xor (xor a b) b = a) (hD : ∀ b, D (E b) = b) (iv : B)
    (ps : List B) : decrypt xor D iv (encrypt xor E iv ps) = ps := by
  induction ps generalizing iv with
  | nil => rfl
  | cons p ps ih => rw [encrypt, decrypt, hD, hxor, ih]

/-- **Encrypting what has been decrypted.** -/
theorem encrypt_decrypt (hxor : ∀ a b, xor (xor a b) b = a) (hE : ∀ b, E (D b) = b) (iv : B)
    (cs : List B) : encrypt xor E iv (decrypt xor D iv cs) = cs := by
  induction cs generalizing iv with
  | nil => rfl
  | cons c cs ih => rw [decrypt, encrypt, hxor, hE, ih]

theorem encrypt_append (iv : B) (ps qs : List B) : encrypt xor E iv (ps ++ qs) =
    encrypt xor E iv ps ++ encrypt xor E ((encrypt xor E iv ps).getLastD iv) qs := by
  induction ps generalizing iv with
  | nil => rfl
  | cons p ps ih =>
    rw [List.cons_append, encrypt, encrypt, ih, List.cons_append, List.getLastD_cons]

theorem decrypt_append (iv : B) (cs ds : List B) : decrypt xor D iv (cs ++ ds) =
    decrypt xor D iv cs ++ decrypt xor D (cs.getLastD iv) ds := by
  induction cs generalizing iv with
  | nil => rfl
  | cons c cs ih =>
    rw [List.cons_append, decrypt, decrypt, ih, List.cons_append, List.getLastD_cons]

end Cbc
