import Apdl.Flags.Hash
import Mathlib.Data.Nat.Bitwise

set_option autoImplicit false

/-!
# Bucketing in signed 32-bit arithmetic

`hash.ts` without a `TextEncoder`: the hand-written UTF-8 encoder over UTF-16 code units, and FNV-1a
in the bit operations of JavaScript, whose operands and results are signed. Both are measured
against the UTF-8 encoding of Lean's strings and against FNV-1a modulo `2 ^ 32`.

## Main results

* `hash_parity` — the three hashes are FNV-1a of the UTF-8 encoding.
-/

namespace Apdl.Flags

/-- The loop of `utf8Bytes`: a high surrogate with a low one behind it is joined and the index
moves on by two; every other unit is pushed by itself. -/
def JavaScript.fallbackBytes : Text → List ℕ
  | [] => []
  | [unit] => utf8Encode unit.toNat
  | unit :: next :: rest =>
    if unit.isHigh && next.isLow then
      utf8Encode (0x10000 + (unit.toNat - 0xD800) <<< 10 + (next.toNat - 0xDC00)) ++
        fallbackBytes rest
    else utf8Encode unit.toNat ++ fallbackBytes (next :: rest)

/-- The bytes of `new Uint8Array(bytes)` and of `new TextEncoder().encode(input)`. -/
def JavaScript.byteArray (textEncoder : Bool) (t : Text) : List UInt8 :=
  (if textEncoder then JavaScript.utf8Bytes true t else JavaScript.fallbackBytes t).map UInt8.ofNat

lemma fallbackBytes_eq (t : Text) :
    JavaScript.fallbackBytes t = t.codePoints.flatMap utf8Encode := by
  induction t using Text.codePoints.induct with
  | case1 => rfl
  | case2 u => simp [JavaScript.fallbackBytes, Text.codePoints]
  | case3 u v rest hpair ih =>
    have hcombine : 0x10000 + (u.toNat - 0xD800) <<< 10 + (v.toNat - 0xDC00) =
        CodeUnit.combine u v := by
      unfold CodeUnit.combine
      omega
    simp only [JavaScript.fallbackBytes, Text.codePoints, hpair, if_true, hcombine, ih,
      List.flatMap_cons]
  | case4 u v rest hpair ih =>
    simp only [JavaScript.fallbackBytes, Text.codePoints, hpair, Bool.false_eq_true, if_false, ih,
      List.flatMap_cons]

/-! ## The code points of a string -/

lemma isSurrogate_char (c : Char) : isSurrogate c.toNat = false := by
  have hvalid : c.toNat < 0xD800 ∨ 0xDFFF < c.toNat ∧ c.toNat < 0x110000 := c.valid
  simp only [isSurrogate, Bool.and_eq_false_iff, decide_eq_false_iff_not]
  omega

lemma codePoints_encodeScalar (c : Char) (t : Text) :
    Text.codePoints (Text.encodeScalar c.toNat ++ t) = c.toNat :: t.codePoints := by
  have hvalid : c.toNat < 0xD800 ∨ 0xDFFF < c.toNat ∧ c.toNat < 0x110000 := c.valid
  unfold Text.encodeScalar
  split
  · next hsmall =>
    have hunit : (UInt16.ofNat c.toNat).toNat = c.toNat := by
      rw [UInt16.toNat_ofNat', Nat.mod_eq_of_lt hsmall]
    have hhigh : CodeUnit.isHigh (UInt16.ofNat c.toNat) = false := by
      simp only [CodeUnit.isHigh, hunit, Bool.and_eq_false_iff, decide_eq_false_iff_not]
      omega
    rw [List.singleton_append, Text.codePoints_cons hhigh, hunit]
  · next hlarge =>
    have hhi : (UInt16.ofNat (0xD800 + (c.toNat - 0x10000) / 0x400)).toNat =
        0xD800 + (c.toNat - 0x10000) / 0x400 := by
      rw [UInt16.toNat_ofNat', Nat.mod_eq_of_lt (by omega)]
    have hlo : (UInt16.ofNat (0xDC00 + (c.toNat - 0x10000) % 0x400)).toNat =
        0xDC00 + (c.toNat - 0x10000) % 0x400 := by
      rw [UInt16.toNat_ofNat', Nat.mod_eq_of_lt (by omega)]
    have hpair : (CodeUnit.isHigh (UInt16.ofNat (0xD800 + (c.toNat - 0x10000) / 0x400)) &&
        CodeUnit.isLow (UInt16.ofNat (0xDC00 + (c.toNat - 0x10000) % 0x400))) = true := by
      simp only [CodeUnit.isHigh, CodeUnit.isLow, hhi, hlo, Bool.and_eq_true, decide_eq_true_eq]
      omega
    have hvalue : ∀ hi lo : CodeUnit, hi.toNat = 0xD800 + (c.toNat - 0x10000) / 0x400 →
        lo.toNat = 0xDC00 + (c.toNat - 0x10000) % 0x400 → CodeUnit.combine hi lo = c.toNat := by
      intro hi lo hhi hlo
      unfold CodeUnit.combine
      omega
    simp only [List.cons_append, List.nil_append, Text.codePoints, hpair, if_true,
      hvalue _ _ hhi hlo]

lemma codePoints_ofString (s : String) :
    (Text.ofString s).codePoints = s.toList.map Char.toNat := by
  unfold Text.ofString
  induction s.toList with
  | nil => rfl
  | cons c cs ih => rw [List.flatMap_cons, codePoints_encodeScalar, ih, List.map_cons]

lemma wellFormed_ofString (s : String) : wellFormed (Text.ofString s) = true := by
  rw [wellFormed, codePoints_ofString]
  simp [isSurrogate_char]

lemma codePoints_lt (t : Text) : ∀ c ∈ t.codePoints, c < 0x110000 := by
  induction t using Text.codePoints.induct with
  | case1 => simp
  | case2 u =>
    have := u.toNat_lt
    simp only [Text.codePoints, List.mem_singleton, forall_eq]
    omega
  | case3 u v rest hpair ih =>
    have hcombine : CodeUnit.combine u v < 0x110000 := by
      simp only [CodeUnit.isHigh, CodeUnit.isLow, Bool.and_eq_true, decide_eq_true_eq] at hpair
      unfold CodeUnit.combine
      omega
    simp only [Text.codePoints, hpair, if_true, List.forall_mem_cons]
    exact ⟨hcombine, ih⟩
  | case4 u v rest hpair ih =>
    have := u.toNat_lt
    simp only [Text.codePoints, hpair, Bool.false_eq_true, if_false, List.forall_mem_cons]
    exact ⟨by omega, ih⟩

lemma exists_ofString {t : Text} (h : wellFormed t = true) : ∃ s, Text.ofString s = t := by
  have hchars : ∀ c ∈ t.codePoints, ∃ char : Char, char.toNat = c := by
    intro c hc
    have hlt := codePoints_lt t c hc
    have hscalar : isSurrogate c = false := by simpa using List.all_eq_true.1 h c hc
    have hvalid : c.isValidChar := by
      simp only [isSurrogate, Bool.and_eq_false_iff, decide_eq_false_iff_not] at hscalar
      exact (show c < 0xD800 ∨ 0xDFFF < c ∧ c < 0x110000 by omega)
    exact ⟨Char.ofNatAux c hvalid, rfl⟩
  have hlist : ∀ l : List ℕ, (∀ c ∈ l, ∃ char : Char, char.toNat = c) →
      ∃ cs : List Char, cs.map Char.toNat = l := by
    intro l hl
    induction l with
    | nil => exact ⟨[], rfl⟩
    | cons c l ih =>
      obtain ⟨⟨char, rfl⟩, hrest⟩ := List.forall_mem_cons.1 hl
      obtain ⟨cs, rfl⟩ := ih hrest
      exact ⟨char :: cs, rfl⟩
  obtain ⟨cs, hcs⟩ := hlist _ hchars
  refine ⟨String.ofList cs, Text.codePoints_injective ?_⟩
  rw [codePoints_ofString, String.toList_ofList, hcs]

/-! ## UTF-8 -/

lemma utf8Encode_char (c : Char) :
    utf8Encode c.toNat = (String.utf8EncodeChar c).map UInt8.toNat := by
  have hmask (x : ℕ) : x &&& 0x3F = x % 64 := Nat.and_two_pow_sub_one_eq_mod x 6
  have htail : ∀ x < 64, 0x80 ||| x = x + 0x80 := by decide
  have htwo : ∀ x < 32, 0xC0 ||| x = x % 0x20 + 0xC0 := by decide
  have hthree : ∀ x < 16, 0xE0 ||| x = x % 0x10 + 0xE0 := by decide
  have hfour : ∀ x < 8, 0xF0 ||| x = x % 0x08 + 0xF0 := by decide
  have hmod (x : ℕ) : 0x80 ||| x % 64 = x % 64 + 0x80 := htail _ (Nat.mod_lt _ (by decide))
  have hbyte {x : ℕ} (hx : x < 256) : (UInt8.ofNat x).toNat = x := by
    rw [UInt8.toNat_ofNat', Nat.mod_eq_of_lt hx]
  have hcont (x : ℕ) : (UInt8.ofNat (x % 64 + 128)).toNat = x % 64 + 128 := hbyte (by omega)
  have hlt : c.toNat < 0x110000 := by
    have hvalid : c.toNat < 0xD800 ∨ 0xDFFF < c.toNat ∧ c.toNat < 0x110000 := c.valid
    omega
  simp only [utf8Encode, String.utf8EncodeChar, hmask, Nat.shiftRight_eq_div_pow, Nat.reducePow,
    hmod, show c.val.toNat = c.toNat from rfl, ← Nat.lt_succ_iff]
  rcases Nat.lt_or_ge c.toNat 0x80 with h1 | h1
  · rw [if_pos h1, if_pos h1]
    simp only [List.map_cons, List.map_nil, hbyte (show c.toNat < 256 by omega)]
  rw [if_neg (Nat.not_lt.2 h1), if_neg (Nat.not_lt.2 h1)]
  rcases Nat.lt_or_ge c.toNat 0x800 with h2 | h2
  · rw [if_pos h2, if_pos h2, htwo _ (by omega)]
    simp only [List.map_cons, List.map_nil, hcont,
      hbyte (show c.toNat / 64 % 32 + 192 < 256 by omega)]
  rw [if_neg (Nat.not_lt.2 h2), if_neg (Nat.not_lt.2 h2)]
  rcases Nat.lt_or_ge c.toNat 0x10000 with h3 | h3
  · rw [if_pos h3, if_pos h3, hthree _ (by omega)]
    simp only [List.map_cons, List.map_nil, hcont,
      hbyte (show c.toNat / 4096 % 16 + 224 < 256 by omega)]
  · rw [if_neg (Nat.not_lt.2 h3), if_neg (Nat.not_lt.2 h3), hfour _ (by omega)]
    simp only [List.map_cons, List.map_nil, hcont,
      hbyte (show c.toNat / 262144 % 8 + 240 < 256 by omega)]

def utf8 (s : String) : List UInt8 := s.toByteArray.data.toList

lemma flatMap_utf8Encode (s : String) :
    (Text.ofString s).codePoints.flatMap utf8Encode = (utf8 s).map UInt8.toNat := by
  rw [utf8, ← String.utf8Encode_toList, List.utf8Encode, List.toList_data_toByteArray,
    codePoints_ofString, List.flatMap_map, List.map_flatMap]
  exact List.flatMap_congr fun c _ => utf8Encode_char c

lemma encodeUtf8_ofString (s : String) :
    Python.encodeUtf8 (Text.ofString s) = some ((utf8 s).map UInt8.toNat) := by
  rw [Python.encodeUtf8, if_pos (wellFormed_ofString s), flatMap_utf8Encode]

theorem byteArray_ofString (textEncoder : Bool) (s : String) :
    JavaScript.byteArray textEncoder (Text.ofString s) = utf8 s := by
  have hbytes : (if textEncoder then JavaScript.utf8Bytes true (Text.ofString s)
      else JavaScript.fallbackBytes (Text.ofString s)) = (utf8 s).map UInt8.toNat := by
    cases textEncoder with
    | true =>
      have hpython := utf8Bytes_of_wellFormed (wellFormed_ofString s) true
      rw [encodeUtf8_ofString, Option.some.injEq] at hpython
      exact hpython.symm
    | false => exact (fallbackBytes_eq _).trans (flatMap_utf8Encode s)
  rw [JavaScript.byteArray, hbytes, List.map_map]
  exact List.map_id'' (fun b => UInt8.ofNat_toNat) _

/-! ## FNV-1a -/

/-- `a ^ b`: both operands as signed 32-bit integers. -/
def JavaScript.bitXor (a b : ℤ) : ℤ := (BitVec.ofInt 32 a ^^^ BitVec.ofInt 32 b).toInt

/-- `Math.imul(a, b)`: the low 32 bits of the product, signed. -/
def JavaScript.imul (a b : ℤ) : ℤ := (BitVec.ofInt 32 a * BitVec.ofInt 32 b).toInt

/-- `a >>> 0`. -/
def JavaScript.unsigned (a : ℤ) : ℤ := (BitVec.ofInt 32 a).toNat

/-- The body of the loop of `hashBucket`. -/
def JavaScript.hashByte (hash : ℤ) (byte : UInt8) : ℤ :=
  JavaScript.unsigned (JavaScript.imul (JavaScript.bitXor hash byte.toNat) fnvPrime)

/-- `hashBucket` over the bytes of the text. -/
def JavaScript.hashBytes (bytes : List UInt8) : ℤ :=
  JavaScript.unsigned (bytes.foldl JavaScript.hashByte fnvOffsetBasis)

/-- A round of FNV-1a modulo `2 ^ 32`. -/
def fnvRound (hash : ℕ) (byte : UInt8) : ℕ := (hash ^^^ byte.toNat) * fnvPrime % 2 ^ 32

/-- FNV-1a modulo `2 ^ 32`. -/
def fnv1a (bytes : List UInt8) : ℕ := bytes.foldl fnvRound fnvOffsetBasis

lemma hashByte_eq (hash : ℕ) (byte : UInt8) :
    JavaScript.hashByte hash byte = fnvRound hash byte := by
  have hprime : fnvPrime % 2 ^ 32 = fnvPrime := by decide
  simp only [JavaScript.hashByte, JavaScript.unsigned, JavaScript.imul, JavaScript.bitXor,
    BitVec.ofInt_toInt, BitVec.ofInt_natCast]
  rw [BitVec.toNat_mul, BitVec.toNat_xor, BitVec.toNat_ofNat, BitVec.toNat_ofNat,
    BitVec.toNat_ofNat, hprime, ← Nat.xor_mod_two_pow, Nat.mod_mul_mod, fnvRound]

lemma foldl_fnvRound_lt (bytes : List UInt8) {hash : ℕ} (h : hash < 2 ^ 32) :
    bytes.foldl fnvRound hash < 2 ^ 32 := by
  induction bytes generalizing hash with
  | nil => exact h
  | cons byte bytes ih => exact ih (Nat.mod_lt _ (Nat.two_pow_pos 32))

lemma foldl_hashByte (bytes : List UInt8) (hash : ℕ) :
    bytes.foldl JavaScript.hashByte hash = (bytes.foldl fnvRound hash : ℕ) := by
  induction bytes generalizing hash with
  | nil => rfl
  | cons byte bytes ih => rw [List.foldl_cons, hashByte_eq, ih, List.foldl_cons]

theorem hashBytes_eq (bytes : List UInt8) : JavaScript.hashBytes bytes = fnv1a bytes := by
  have hlt : fnv1a bytes < 2 ^ 32 := foldl_fnvRound_lt bytes (by decide)
  rw [JavaScript.hashBytes, foldl_hashByte, JavaScript.unsigned, BitVec.ofInt_natCast,
    BitVec.toNat_ofNat, ← fnv1a, Nat.mod_eq_of_lt hlt]

lemma ofString_append (a b : String) :
    Text.ofString (a ++ b) = Text.ofString a ++ Text.ofString b := by
  rw [Text.ofString, String.toList_append, List.flatMap_append]
  rfl

lemma hashBucket_ofString (flagKey salt unitId : String) :
    Python.hashBucket (Text.ofString flagKey) (Text.ofString salt) (Text.ofString unitId) =
      some (fnv1a (utf8 (flagKey ++ ":" ++ salt ++ ":" ++ unitId))) := by
  have hinput : hashInput (Text.ofString flagKey) (Text.ofString salt) (Text.ofString unitId) =
      Text.ofString (flagKey ++ ":" ++ salt ++ ":" ++ unitId) := by
    simp only [hashInput, ofString_append]
  have hmask (h : ℕ) (b : UInt8) : Python.hashStep h b.toNat = fnvRound h b :=
    Nat.and_two_pow_sub_one_eq_mod _ 32
  rw [Python.hashBucket, hinput, encodeUtf8_ofString, Option.map_some, List.foldl_map]
  simp only [hmask]
  rfl

/-- **Hash parity**: the texts without unpaired surrogates are the encodings of strings; the
fallback encoder and `TextEncoder` give the UTF-8 bytes of the string, and the JavaScript hash and
the Python hashes are FNV-1a of these bytes. -/
theorem hash_parity (textEncoder : Bool) :
    (∀ t : Text, wellFormed t = true ↔ ∃ s, Text.ofString s = t) ∧
    (∀ s : String, JavaScript.byteArray textEncoder (Text.ofString s) = utf8 s) ∧
    ∀ flagKey salt unitId : String,
      let data := flagKey ++ ":" ++ salt ++ ":" ++ unitId
      JavaScript.hashBytes (JavaScript.byteArray textEncoder (Text.ofString data)) =
          fnv1a (utf8 data) ∧
        Python.hashBucket (Text.ofString flagKey) (Text.ofString salt) (Text.ofString unitId) =
          some (fnv1a (utf8 data)) := by
  refine ⟨fun t => ⟨exists_ofString, ?_⟩, byteArray_ofString textEncoder,
    fun flagKey salt unitId => ⟨?_, hashBucket_ofString flagKey salt unitId⟩⟩
  · rintro ⟨s, rfl⟩
    exact wellFormed_ofString s
  · rw [byteArray_ofString]
    exact hashBytes_eq _

end Apdl.Flags
