import Mathlib.Data.List.Basic

/-!
Owns ciphers with named keys, the ring of keys that seals with its first key
and opens with any, the rotation of a token to the first key, and what the ring
says to a token sealed with a known key.

It does not say what a token is. Which keys keep their tokens apart is a
hypothesis about a set of keys: those that were generated.
-/

namespace BubllioCrm.Foundations

variable {Key Token Plain : Type*}

structure Cipher (Key Token Plain : Type*) where
  encrypt : Key → Nat → Plain → Token
  decrypt : Key → Token → Option Plain

namespace Cipher

variable (cipher : Cipher Key Token Plain)

/-- Each of the keys opens its own tokens and rejects those of the others. -/
structure Separates (generated : Set Key) : Prop where
  decrypt_encrypt : ∀ key ∈ generated, ∀ nonce plain,
    cipher.decrypt key (cipher.encrypt key nonce plain) = some plain
  decrypt_other : ∀ key ∈ generated, ∀ other ∈ generated, other ≠ key → ∀ nonce plain,
    cipher.decrypt other (cipher.encrypt key nonce plain) = none

/-- The token holds the plain value under the key. -/
def Sealed (key : Key) (plain : Plain) (token : Token) : Prop :=
  ∃ nonce, token = cipher.encrypt key nonce plain

/-- The first key seals. -/
def encryptWith (ring : List Key) (nonce : Nat) (plain : Plain) : Option Token :=
  ring.head?.map fun key => cipher.encrypt key nonce plain

/-- The first key that opens the token. -/
def decryptWith (ring : List Key) (token : Token) : Option Plain :=
  ring.findSome? fun key => cipher.decrypt key token

/-- Opens the token with any key and seals it with the first. -/
def rotateWith (ring : List Key) (nonce : Nat) (token : Token) : Option Token :=
  (cipher.decryptWith ring token).bind (cipher.encryptWith ring nonce)

variable {cipher} {generated : Set Key} {ring : List Key} {key : Key} {plain : Plain}
  {token : Token} {nonce : Nat}

theorem sealed_encrypt (key : Key) (nonce : Nat) (plain : Plain) :
    cipher.Sealed key plain (cipher.encrypt key nonce plain) :=
  ⟨nonce, rfl⟩

theorem encryptWith_eq_some :
    cipher.encryptWith ring nonce plain = some token ↔
      ∃ key, ring.head? = some key ∧ cipher.encrypt key nonce plain = token :=
  Option.map_eq_some_iff

/-- A ring of generated keys opens a token exactly when it has the token's key. -/
theorem decryptWith_sealed (separates : cipher.Separates generated)
    (known : ∀ other ∈ ring, other ∈ generated) (isGenerated : key ∈ generated)
    (isSealed : cipher.Sealed key plain token) :
    cipher.decryptWith ring token = some plain ↔ key ∈ ring := by
  obtain ⟨nonce, rfl⟩ := isSealed
  unfold decryptWith
  induction ring with
  | nil => simp
  | cons first rest inductionHypothesis =>
      rw [List.forall_mem_cons] at known
      rw [List.findSome?_cons, List.mem_cons]
      by_cases same : first = key
      · subst same
        simp [separates.decrypt_encrypt first isGenerated]
      · rw [separates.decrypt_other key isGenerated first known.1 same]
        simp only [inductionHypothesis known.2, Ne.symm same, false_or]

/-- A ring that has the token's key rotates it. -/
theorem rotateWith_sealed (separates : cipher.Separates generated)
    (known : ∀ other ∈ ring, other ∈ generated) (member : key ∈ ring)
    (isSealed : cipher.Sealed key plain token) (nonce : Nat) :
    ∃ primary, ring.head? = some primary ∧
      cipher.rotateWith ring nonce token = some (cipher.encrypt primary nonce plain) := by
  have opens := (decryptWith_sealed separates known (known key member) isSealed).mpr member
  obtain ⟨primary, isFirst⟩ : ∃ primary, ring.head? = some primary := by
    cases ring with
    | nil => cases member
    | cons first rest => exact ⟨first, rfl⟩
  exact ⟨primary, isFirst, by simp [rotateWith, opens, encryptWith, isFirst]⟩

end Cipher

end BubllioCrm.Foundations
