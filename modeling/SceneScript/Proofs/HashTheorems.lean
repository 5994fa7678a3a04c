/-
SceneScript.Proofs.HashTheorems — which names can share a key.

Taking a byte into a running hash loses nothing: it can be undone (`retract_absorb`,
`absorb_retract`), since xor with a byte undoes itself and the multiplier of the step is odd, so
that it has an inverse among words of sixty-four bits. So a step is a bijection of words, and so
is the whole run over the bytes of a suffix (`foldl_absorb_bijective`). A byte can be told from
the hash before it and the hash after it (`absorb_right_inj`).

It follows that a common suffix of two names has no say in whether they share a key, and that a
name in which one byte is exchanged has another key (`keys_of_near_names`).
-/
import Mathlib.Logic.Function.Basic
import SceneScript.Key

namespace SceneScript.Key

/-! ## §1 One step -/

/-- The inverse of the multiplier of a hashing step. -/
def primeInverse : UInt64 := 0xce965057aff6957b

theorem prime_mul_inverse : prime * primeInverse = 1 := by
  decide

theorem inverse_mul_prime : primeInverse * prime = 1 := by
  rw [UInt64.mul_comm, prime_mul_inverse]

/-- The hash before a byte was taken in. -/
def retract (hash : UInt64) (byte : UInt8) : UInt64 := hash * primeInverse ^^^ byte.toUInt64

variable {hash hash' : UInt64} {byte byte' : UInt8}

theorem absorb_mul_inverse (hash : UInt64) (byte : UInt8) :
    absorb hash byte * primeInverse = hash ^^^ byte.toUInt64 := by
  rw [absorb, UInt64.mul_assoc, prime_mul_inverse, UInt64.mul_one]

theorem retract_absorb (hash : UInt64) (byte : UInt8) :
    retract (absorb hash byte) byte = hash := by
  rw [retract, absorb_mul_inverse, UInt64.xor_assoc, UInt64.xor_self, UInt64.xor_zero]

theorem absorb_retract (hash : UInt64) (byte : UInt8) :
    absorb (retract hash byte) byte = hash := by
  rw [absorb, retract, UInt64.xor_assoc, UInt64.xor_self, UInt64.xor_zero, UInt64.mul_assoc,
    inverse_mul_prime, UInt64.mul_one]

/-- A step is a bijection of words. -/
theorem absorb_bijective (byte : UInt8) : Function.Bijective (absorb · byte) :=
  Function.bijective_iff_has_inverse.mpr
    ⟨(retract · byte), (retract_absorb · byte), (absorb_retract · byte)⟩

/-- Different bytes lead from one hash to different ones. -/
theorem absorb_right_inj : absorb hash byte = absorb hash byte' ↔ byte = byte' := by
  constructor
  · intro h
    have hword : hash ^^^ byte.toUInt64 = hash ^^^ byte'.toUInt64 := by
      rw [← absorb_mul_inverse, h, absorb_mul_inverse]
    exact UInt8.toUInt64_inj.mp ((UInt64.xor_right_inj hash).mp hword)
  · intro h
    rw [h]

/-! ## §2 Names -/

/-- What comes at the end of a name acts on hashes as a bijection: one step after the other. -/
theorem foldl_absorb_bijective (back : List UInt8) :
    Function.Bijective fun hash => back.foldl absorb hash := by
  induction back with
  | nil => exact Function.bijective_id
  | cons byte rest ih => exact ih.comp (absorb_bijective byte)

variable {front front' back : List UInt8}

/-- A common suffix does not matter. -/
theorem ofBytes_append_inj :
    ofBytes (front ++ back) = ofBytes (front' ++ back) ↔ ofBytes front = ofBytes front' := by
  rw [ofBytes_append, ofBytes_append, Key.mk.injEq, (foldl_absorb_bijective back).injective.eq_iff]
  exact ⟨congrArg Key.mk, congrArg Key.word⟩

theorem ofBytes_exchange_inj :
    ofBytes (front ++ [byte] ++ back) = ofBytes (front ++ [byte'] ++ back) ↔ byte = byte' := by
  rw [ofBytes_append_inj, ofBytes_append, ofBytes_append, Key.mk.injEq]
  exact absorb_right_inj

/-- The bytes of a name come after those of the name before it. -/
theorem ofName_append (front back : String) :
    ofName (front ++ back) =
      ofBytes (front.toUTF8.data.toList ++ back.toUTF8.data.toList) := by
  simp only [ofName, String.toUTF8, String.toByteArray_append, ByteArray.toList_data_append]

/-- **Keys of near names**: the key of a name is that of its UTF-8 bytes, which are taken in one
after the other from a fixed hash on. Each step is a bijection of words, so that names with a
common suffix share a key exactly when what is before the suffix does, and an exchange of one byte
always changes the key. -/
theorem keys_of_near_names :
    (∀ name : String, ofName name = ofBytes name.toUTF8.data.toList) ∧
    (∀ bytes, ofBytes bytes = ⟨bytes.foldl absorb offsetBasis⟩) ∧
    (∀ byte, Function.Bijective (absorb · byte)) ∧
    (∀ (front back : List UInt8) (byte byte' : UInt8),
      ofBytes (front ++ [byte] ++ back) = ofBytes (front ++ [byte'] ++ back) ↔ byte = byte') ∧
    (∀ front front' back : List UInt8,
      ofBytes (front ++ back) = ofBytes (front' ++ back) ↔ ofBytes front = ofBytes front') ∧
    ∀ front front' back : String,
      ofName (front ++ back) = ofName (front' ++ back) ↔ ofName front = ofName front' := by
  refine ⟨fun _ => rfl, fun _ => rfl, absorb_bijective, fun _ _ _ _ => ofBytes_exchange_inj,
    fun _ _ _ => ofBytes_append_inj, fun front front' back => ?_⟩
  rw [ofName_append, ofName_append]
  exact ofBytes_append_inj

end SceneScript.Key
