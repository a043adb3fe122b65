import Apdl.Lib.Utf16
import Mathlib.Data.Rat.Defs

set_option autoImplicit false

/-!
# Deterministic bucketing

`hash_bucket` of the config service and the Python SDK and `hashBucket` of `hash.ts`: FNV-1a over
the UTF-8 bytes of `key:salt:unit`. Python multiplies unbounded integers and masks the product,
JavaScript multiplies in 32 bits; Python refuses to encode an unpaired surrogate, a JavaScript
`TextEncoder` replaces it.

## Main results

* `hashBucket_eq` — the hashes agree on text without unpaired surrogates.
-/

namespace Apdl.Flags

/-! ## UTF-8 -/

/-- A surrogate code point. -/
def isSurrogate (c : ℕ) : Bool := decide (0xD800 ≤ c) && decide (c ≤ 0xDFFF)

/-- The UTF-8 bytes of a code point. -/
def utf8Encode (c : ℕ) : List ℕ :=
  if c < 0x80 then [c]
  else if c < 0x800 then [0xC0 ||| c >>> 6, 0x80 ||| (c &&& 0x3F)]
  else if c < 0x10000 then [0xE0 ||| c >>> 12, 0x80 ||| ((c >>> 6) &&& 0x3F), 0x80 ||| (c &&& 0x3F)]
  else
    [0xF0 ||| c >>> 18, 0x80 ||| ((c >>> 12) &&& 0x3F), 0x80 ||| ((c >>> 6) &&& 0x3F),
      0x80 ||| (c &&& 0x3F)]

/-- No code point is an unpaired surrogate. -/
def wellFormed (t : Text) : Bool := t.codePoints.all fun c => !isSurrogate c

/-- `str.encode("utf-8")`; `none` when it raises `UnicodeEncodeError`. -/
def Python.encodeUtf8 (t : Text) : Option (List ℕ) :=
  if wellFormed t then some (t.codePoints.flatMap utf8Encode) else none

/-- `utf8Bytes`: with a `TextEncoder` an unpaired surrogate is replaced by U+FFFD, without one it
is encoded like any other code point. -/
def JavaScript.utf8Bytes (textEncoder : Bool) (t : Text) : List ℕ :=
  if textEncoder then
    t.codePoints.flatMap fun c => utf8Encode (if isSurrogate c then 0xFFFD else c)
  else t.codePoints.flatMap utf8Encode

lemma wellFormed_append_cons {u : CodeUnit} (hhigh : u.isHigh = false) (hlow : u.isLow = false)
    (a b : Text) : wellFormed (a ++ u :: b) = (wellFormed a && wellFormed b) := by
  have hplain : isSurrogate u.toNat = false := by
    simp only [CodeUnit.isHigh, CodeUnit.isLow, isSurrogate, Bool.and_eq_false_iff,
      decide_eq_false_iff_not, not_le] at hhigh hlow ⊢
    omega
  simp [wellFormed, Text.codePoints_append_cons hhigh hlow, hplain]

lemma utf8Bytes_of_wellFormed {t : Text} (h : wellFormed t = true) (textEncoder : Bool) :
    Python.encodeUtf8 t = some (JavaScript.utf8Bytes textEncoder t) := by
  rw [Python.encodeUtf8, if_pos h]
  cases textEncoder with
  | false => rfl
  | true =>
    simp only [JavaScript.utf8Bytes, if_true, Option.some.injEq]
    refine List.flatMap_congr fun c hc => ?_
    have hnot : isSurrogate c = false := by simpa using List.all_eq_true.1 h c hc
    simp [hnot]

/-! ## FNV-1a -/

def fnvOffsetBasis : ℕ := 2166136261

def fnvPrime : ℕ := 16777619

def uint32Max : ℕ := 0xFFFFFFFF

/-- One round in Python: `h ^= byte; h = (h * prime) & _UINT32_MAX`. -/
def Python.hashStep (h byte : ℕ) : ℕ := ((h ^^^ byte) * fnvPrime) &&& uint32Max

/-- One round in JavaScript: `hash ^= byte; hash = Math.imul(hash, prime) >>> 0`. -/
def JavaScript.hashStep (h byte : ℕ) : ℕ :=
  ((BitVec.ofNat 32 h ^^^ BitVec.ofNat 32 byte) * BitVec.ofNat 32 fnvPrime).toNat

lemma hashStep_eq (h byte : ℕ) : Python.hashStep h byte = JavaScript.hashStep h byte := by
  have hmask : uint32Max = 2 ^ 32 - 1 := by decide
  have hprime : fnvPrime % 2 ^ 32 = fnvPrime := by decide
  rw [Python.hashStep, hmask, Nat.and_two_pow_sub_one_eq_mod, JavaScript.hashStep,
    BitVec.toNat_mul, BitVec.toNat_xor, BitVec.toNat_ofNat, BitVec.toNat_ofNat,
    BitVec.toNat_ofNat, hprime, ← Nat.xor_mod_two_pow, Nat.mod_mul_mod]

def hashInput (flagKey salt unitId : Text) : Text :=
  flagKey ++ Text.ofString ":" ++ salt ++ Text.ofString ":" ++ unitId

lemma wellFormed_hashInput (flagKey salt unitId : Text) {suffix : Text}
    (h : wellFormed suffix = true) :
    wellFormed (hashInput flagKey (salt ++ 58 :: suffix) unitId) =
      (wellFormed flagKey && wellFormed salt && wellFormed unitId) := by
  have hcolon : Text.ofString ":" = [58] := by decide
  have hinput : hashInput flagKey (salt ++ 58 :: suffix) unitId =
      flagKey ++ 58 :: (salt ++ 58 :: (suffix ++ 58 :: unitId)) := by
    simp [hashInput, hcolon]
  rw [hinput]
  simp only [wellFormed_append_cons (u := 58) (by decide) (by decide), h, Bool.true_and,
    Bool.and_assoc]

/-- `hash_bucket`; `none` when the text cannot be encoded. -/
def Python.hashBucket (flagKey salt unitId : Text) : Option ℕ :=
  (Python.encodeUtf8 (hashInput flagKey salt unitId)).map fun bytes =>
    bytes.foldl Python.hashStep fnvOffsetBasis

def JavaScript.hashBucket (textEncoder : Bool) (flagKey salt unitId : Text) : ℕ :=
  (JavaScript.utf8Bytes textEncoder (hashInput flagKey salt unitId)).foldl JavaScript.hashStep
    fnvOffsetBasis

theorem hashBucket_eq {flagKey salt unitId : Text}
    (h : wellFormed (hashInput flagKey salt unitId) = true) (textEncoder : Bool) :
    Python.hashBucket flagKey salt unitId =
      some (JavaScript.hashBucket textEncoder flagKey salt unitId) := by
  have hstep : Python.hashStep = JavaScript.hashStep := by
    funext a b
    exact hashStep_eq a b
  rw [Python.hashBucket, utf8Bytes_of_wellFormed h textEncoder, Option.map_some,
    JavaScript.hashBucket, hstep]

lemma hashBucket_eq_none {flagKey salt unitId : Text}
    (h : wellFormed (hashInput flagKey salt unitId) = false) :
    Python.hashBucket flagKey salt unitId = none := by
  simp [Python.hashBucket, Python.encodeUtf8, h]

/-- `percentage_bucket` of a hash, as an exact fraction of one hundred. -/
def percentageBucket (hash : ℕ) : ℚ := (hash : ℚ) / (uint32Max : ℚ) * 100

end Apdl.Flags
