import Mathlib.Logic.Basic
import Mathlib.Tactic.TypeStar

/-!
# Authenticated encryption with a keystream

A cipher of this kind combines a text with a keystream, byte by byte, and computes a tag of
the result.  The text can be given in pieces (`crypt_append`), and combining twice is the
identity (`crypt_crypt`).

Whoever does not have the key cannot make a text that is accepted.  That is a matter of
effort and not of existence, and it is stated about the texts that were made: in the ideal
case (`Ideal`) a text is accepted with a tag just when it was made and the tag is its own.
-/

namespace Shellius.Lib

abbrev Bytes := List UInt8

/-- A cipher: its keystream, its tags, and the check of a tag.  A check may take a tag that has
been cut short. -/
structure Aead (κ ν : Type*) where
  keystream : κ → ν → Nat → UInt8
  tag : κ → ν → Bytes → Bytes
  accepts : κ → ν → Bytes → Bytes → Bool

namespace Aead

variable {κ ν : Type*} (g : Aead κ ν) {k : κ} {n : ν} {i : Nat} {a b c t : Bytes}

/-- A text combined with the keystream from a position on. -/
def crypt (k : κ) (n : ν) : Nat → Bytes → Bytes
  | _, [] => []
  | i, x :: xs => (x ^^^ g.keystream k n i) :: crypt k n (i + 1) xs

@[simp] theorem crypt_nil : g.crypt k n i [] = [] := rfl

@[simp] theorem length_crypt : (g.crypt k n i a).length = a.length := by
  induction a generalizing i with
  | nil => rfl
  | cons x xs ih => rw [crypt, List.length_cons, List.length_cons, ih]

theorem crypt_append : g.crypt k n i (a ++ b) = g.crypt k n i a ++ g.crypt k n (i + a.length) b := by
  induction a generalizing i with
  | nil => rfl
  | cons x xs ih =>
    rw [List.cons_append, crypt, ih, crypt, List.cons_append, List.length_cons,
      Nat.add_right_comm, Nat.add_assoc]

theorem crypt_crypt : g.crypt k n i (g.crypt k n i a) = a := by
  induction a generalizing i with
  | nil => rfl
  | cons x xs ih =>
    rw [crypt, crypt, ih, UInt8.xor_assoc, UInt8.xor_self, UInt8.xor_zero]

/-- The text, if the tag is accepted. -/
def decrypt (k : κ) (n : ν) (c t : Bytes) : Option Bytes :=
  if g.accepts k n c t then some (g.crypt k n 0 c) else none

/-- What was made with a key and a nonce are the texts in `made`, and no other is accepted. -/
structure Ideal (made : κ → ν → Bytes → Prop) : Prop where
  /-- A text that was made is accepted with its tag. -/
  complete : ∀ {k n c}, made k n c → g.accepts k n c (g.tag k n c) = true
  /-- A text that is accepted was made, and the tag is its own, as far as it goes. -/
  genuine : ∀ {k n c t}, g.accepts k n c t = true → made k n c ∧ t <+: g.tag k n c

variable {g} {made : κ → ν → Bytes → Prop}

theorem Ideal.of_decrypt (h : g.Ideal made) (hdec : g.decrypt k n c t = some a) :
    made k n c ∧ c = g.crypt k n 0 a ∧ t <+: g.tag k n c := by
  unfold decrypt at hdec
  split at hdec
  · rename_i haccepts
    obtain rfl := Option.some.inj hdec
    obtain ⟨hmade, htag⟩ := h.genuine haccepts
    exact ⟨hmade, (g.crypt_crypt).symm, htag⟩
  · cases hdec

end Aead

end Shellius.Lib
