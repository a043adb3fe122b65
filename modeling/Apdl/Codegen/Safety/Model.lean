import Apdl.Lib.Glob
import Mathlib.Data.List.Dedup
import Mathlib.Data.List.Sort
import Mathlib.Order.Defs.LinearOrder
import Mathlib.Data.List.Lex

set_option autoImplicit false

/-!
# The gates before a push

The diff of an editing agent is checked before its branch is pushed: its size, the paths it touches, and
its text. The limits and the protected paths come from a policy that is resolved from three layers: what is
built in, what the operator of the platform sets, and what the tenant sets.

## Main definitions

* `evaluatePrePush` — all gates.

## Design

Strings are sequences of code points, surrogates included. A value that the code checks for its type is
an option, `none` for one of another type. The `repr` of strings is a parameter, and so is `secret_kinds`:
what it finds in a text can only add violations. The digest of a policy, the file it is loaded from and the
test command of the tenant are left out.
-/

namespace Apdl.Codegen.Safety

/-- A string, as its code points. -/
abbrev Str := List ℕ

/-- The code points of a literal. -/
def points (s : String) : Str := s.toList.map Char.toNat

/-- `/`. -/
def slash : ℕ := 47

/-- The special characters of `fnmatch`. -/
def marks : Glob.Marks ℕ where
  star := 42
  any := 63
  opening := 91
  closing := 93
  negation := 33
  dash := 45

/-- `fnmatch` on POSIX. -/
def fnmatch (name pattern : Str) : Bool := Glob.isMatch (Glob.parse marks pattern) name

/-- `sorted(set(values))`. -/
def sortedSet (values : List Str) : List Str := values.dedup.insertionSort (· ≤ ·)

lemma mem_sortedSet {values : List Str} {value : Str} : value ∈ sortedSet values ↔ value ∈ values := by
  rw [sortedSet, List.mem_insertionSort, List.mem_dedup]

lemma pairwise_sortedSet (values : List Str) : (sortedSet values).Pairwise (· < ·) := by
  have hsorted : (sortedSet values).Pairwise (· ≤ ·) := List.pairwise_insertionSort _ _
  have hnodup : (sortedSet values).Nodup :=
    (List.perm_insertionSort _ _).nodup_iff.2 (List.nodup_dedup values)
  exact (hsorted.and hnodup).imp fun h => lt_of_le_of_ne h.1 h.2

lemma length_sortedSet_le (values : List Str) : (sortedSet values).length ≤ values.length := by
  rw [sortedSet, List.length_insertionSort]
  exact (List.dedup_sublist values).length_le

/-! ## Policies -/

def maxAdditionalProtectedPaths : ℕ := 64

def defaultProtectedPatterns : List Str :=
  [points ".github/workflows/*", points "*.pem", points "*.key", points "id_rsa*", points ".env",
    points ".env.*"]

/-- What `_canonical_protected_patterns` says about one pattern. -/
def patternError (value : Str) : Option String :=
  if value = [] then some "protected path patterns must not be empty"
  else if 256 < value.length then some "protected path patterns must be at most 256 characters"
  else if (points "/").isPrefixOf value || (points "./").isPrefixOf value || value.contains 92 then
    some "protected path patterns must be canonical repository-relative paths"
  else if value.any fun c => c == 0 || c == 13 || c == 10 then
    some "protected path patterns contain invalid characters"
  else if (value.splitOn slash).contains (points "..") then
    some "protected path patterns must not traverse parent paths"
  else none

/-- `_canonical_protected_patterns`; an error is the message of the `ValueError`. -/
def canonicalProtectedPatterns (values : List Str) : Except String (List Str) :=
  match values.findSome? patternError with
  | some message => .error message
  | none => .ok (sortedSet values)

structure AdditionalProtectedPaths where
  values : List Str
  valid : ∀ value ∈ values, patternError value = none
  sorted : values.Pairwise (· < ·)
  length_le : values.length ≤ maxAdditionalProtectedPaths

/-- The validation of `additional_protected_paths`. -/
def AdditionalProtectedPaths.validate (values : List Str) : Except String AdditionalProtectedPaths :=
  if hlength : values.length ≤ maxAdditionalProtectedPaths then
    match hcheck : values.findSome? patternError with
    | some message => .error message
    | none => .ok
      { values := sortedSet values
        valid := fun value hvalue => List.findSome?_eq_none_iff.1 hcheck value (mem_sortedSet.1 hvalue)
        sorted := pairwise_sortedSet values
        length_le := (length_sortedSet_le values).trans hlength }
  else .error ("List should have at most 64 items after validation, not " ++ toString values.length)

abbrev PositiveStrictInt := {n : ℤ // 1 ≤ n}

/-- `TenantCodegenConnectionPolicy`, with its `TenantCodegenGatesPolicy`. -/
structure TenantCodegenConnectionPolicy where
  maxFiles : Option PositiveStrictInt
  maxLines : Option PositiveStrictInt
  additionalProtectedPaths : AdditionalProtectedPaths
  /-- `runtime_acceptance.enabled`. -/
  runtimeAcceptanceEnabled : Bool

structure PlatformCodegenSafetyPolicy where
  maxFiles : PositiveStrictInt
  maxLines : PositiveStrictInt
  additionalProtectedPaths : AdditionalProtectedPaths
  runtimeWorkflowGenerationEnabled : Bool

structure EffectiveCodegenSafetyPolicy where
  maxFiles : PositiveStrictInt
  maxLines : PositiveStrictInt
  protectedPaths : List Str
  runtimeWorkflowGenerationEnabled : Bool
  valid : ∀ value ∈ protectedPaths, patternError value = none
  sorted : protectedPaths.Pairwise (· < ·)
  defaults : ∀ value ∈ defaultProtectedPatterns, value ∈ protectedPaths
  length_le : protectedPaths.length ≤ 2 * maxAdditionalProtectedPaths + defaultProtectedPatterns.length

lemma patternError_default : ∀ value ∈ defaultProtectedPatterns, patternError value = none := by
  decide +kernel

def layeredPaths (tenant : TenantCodegenConnectionPolicy) (platform : PlatformCodegenSafetyPolicy) :
    List Str :=
  defaultProtectedPatterns ++ platform.additionalProtectedPaths.values ++
    tenant.additionalProtectedPaths.values

def resolveEffectivePolicy (tenant : TenantCodegenConnectionPolicy)
    (platform : PlatformCodegenSafetyPolicy) : EffectiveCodegenSafetyPolicy where
  maxFiles := min platform.maxFiles (tenant.maxFiles.getD platform.maxFiles)
  maxLines := min platform.maxLines (tenant.maxLines.getD platform.maxLines)
  protectedPaths := sortedSet (layeredPaths tenant platform)
  runtimeWorkflowGenerationEnabled :=
    platform.runtimeWorkflowGenerationEnabled && tenant.runtimeAcceptanceEnabled
  valid := by
    intro value hvalue
    rcases List.mem_append.1 (mem_sortedSet.1 hvalue) with hvalue | hvalue
    · rcases List.mem_append.1 hvalue with hvalue | hvalue
      · exact patternError_default value hvalue
      · exact platform.additionalProtectedPaths.valid value hvalue
    · exact tenant.additionalProtectedPaths.valid value hvalue
  sorted := pairwise_sortedSet _
  defaults := fun value hvalue =>
    mem_sortedSet.2 (List.mem_append_left _ (List.mem_append_left _ hvalue))
  length_le := by
    have hplatform := platform.additionalProtectedPaths.length_le
    have htenant := tenant.additionalProtectedPaths.length_le
    have hlength := length_sortedSet_le (layeredPaths tenant platform)
    simp only [layeredPaths, List.length_append] at hlength
    simp only [layeredPaths]
    omega

def runtimeAcceptanceWorkflowPath : Str := points ".github/workflows/apdl-runtime-acceptance.yml"

structure VerifiedProtectedPathExemption where
  contentSha256 : Str
  runtimeAcceptancePlanSha256 : Str
  deriving DecidableEq

/-- The path of an exemption: the type of the field has no other value. -/
def VerifiedProtectedPathExemption.path (_ : VerifiedProtectedPathExemption) : Str :=
  runtimeAcceptanceWorkflowPath

/-! ## Changed paths -/

/-- Hexadecimal digits, padded with zeros. -/
def hex (width n : ℕ) : Str :=
  let digits := (Nat.toDigits 16 n).map Char.toNat
  List.replicate (width - digits.length) 48 ++ digits

/-- `str.encode("unicode_escape")`. -/
def unicodeEscape (s : Str) : Str := s.flatMap fun c =>
  if c = 92 then points "\\\\"
  else if c = 9 then points "\\t"
  else if c = 10 then points "\\n"
  else if c = 13 then points "\\r"
  else if 0x10000 ≤ c then points "\\U" ++ hex 8 c
  else if 256 ≤ c then points "\\u" ++ hex 4 c
  else if c < 32 ∨ 127 ≤ c then points "\\x" ++ hex 2 c
  else [c]

/-- `PurePosixPath(path).parts` of a path that is not absolute. -/
def parts (path : Str) : List Str :=
  (path.splitOn slash).filter fun part => part != [] && part != points "."

variable (repr : Str → Str)

/-- `canonical_changed_path`; an error is the message of the `ChangedPathError`. -/
def canonicalChangedPath : Option Str → Except Str Str
  | none => .error (points "changed paths must be strings")
  | some path =>
    if path = [] ∨ 0 ∈ path then .error (points "changed paths must be non-empty and NUL-free")
    else if path.any fun c => decide (0xD800 ≤ c ∧ c ≤ 0xDFFF) then
      .error (points "changed paths must contain valid UTF-8 text")
    else if path.head? = some slash ∨ parts path = [] ∨ points ".." ∈ parts path then
      .error (points "changed path must stay repository-relative: " ++ repr path)
    else if [slash].intercalate (parts path) ≠ path then
      .error (points "changed path must use canonical repository-relative form: " ++ repr path)
    else .ok path

def canonicalChangedPaths (paths : List (Option Str)) : Except Str (List Str) :=
  (paths.mapM (canonicalChangedPath repr)).bind fun canonical =>
    if canonical.Nodup then .ok canonical
    else .error (points "changed paths must not contain duplicates")

/-- `require_changed_path_list`; `none` is a value that is no list. -/
def requireChangedPathList : Option (List (Option Str)) → Except Str (List Str)
  | none => .error (points "expected a list of path strings")
  | some paths => canonicalChangedPaths repr paths

def malformedChangedPathsViolation (message : Str) : Str :=
  points "Changed paths are malformed: " ++ unicodeEscape message ++ points "."

/-! ## Gates -/

/-- `fnmatch(path, pattern) or fnmatch(path, f"*/{pattern}")`. -/
def touches (path pattern : Str) : Bool :=
  fnmatch path pattern || fnmatch path (42 :: slash :: pattern)

def pathViolation (protectedPaths : List Str) (path : Str) : Option Str :=
  (protectedPaths.find? (touches path)).map fun pattern =>
    points "Change touches protected path " ++ repr path ++ points " (matches " ++ repr pattern ++
      points ")."

/-- `protected_path_violations`; an error is the message of the `ChangedPathError`. -/
def protectedPathViolations (paths : List Str) (protectedPaths : List Str)
    (verifiedExemptions : List VerifiedProtectedPathExemption) : Except Str (List Str) :=
  (canonicalChangedPaths repr (paths.map some)).map fun paths =>
    (paths.filter fun path =>
      !((verifiedExemptions.map VerifiedProtectedPathExemption.path).contains path)).filterMap
        (pathViolation repr protectedPaths)

/-- A value in the statistics of a diff. -/
inductive StatValue
  /-- An integer that is no boolean. -/
  | int (n : ℤ)
  | other
  deriving DecidableEq

/-- The statistics of a diff: a dictionary, or `none` for a value of another type. -/
abbrev DiffStat := Option (List (String × StatValue))

/-- The fields of the statistics. -/
def required : List String := ["files", "additions", "deletions"]

def countOf (fields : List (String × StatValue)) (name : String) : Option ℤ :=
  match fields.lookup name with
  | some (.int n) => if n < 0 then none else some n
  | _ => none

def diffTooLarge (diffStat : DiffStat) (maxFiles maxLines : ℤ) : Option String :=
  match diffStat with
  | none => some "Diff statistics are malformed: expected an object."
  | some fields =>
    let missing := required.filter fun name => (fields.lookup name).isNone
    if missing ≠ [] then
      some ("Diff statistics are malformed: missing " ++ ", ".intercalate missing ++ ".")
    else
      match required.find? fun name => (countOf fields name).isNone with
      | some name =>
        some ("Diff statistics are malformed: " ++ name ++ " must be a non-negative integer.")
      | none =>
        let files := (countOf fields "files").getD 0
        let lines := (countOf fields "additions").getD 0 + (countOf fields "deletions").getD 0
        if maxFiles < files then
          some ("Diff touches " ++ toString files ++ " files, exceeding the " ++ toString maxFiles ++
            "-file limit.")
        else if maxLines < lines then
          some ("Diff changes " ++ toString lines ++ " lines, exceeding the " ++ toString maxLines ++
            "-line limit.")
        else none

/-- An exception of `secret_kinds`. -/
inductive SecretScanError
  /-- `SecretScanLimitError`, which fails closed. -/
  | limit (message : Str)
  /-- Any other one, which is not caught. -/
  | uncaught (message : Str)
  deriving DecidableEq

/-- `scan_secrets`; an error is the message of an exception that is not caught. -/
def scanSecrets (secretKinds : Str → Except SecretScanError (List Str)) (diffText : Str) :
    Except Str (List Str) :=
  match secretKinds diffText with
  | .error (.uncaught message) => .error message
  | .error (.limit message) => .ok [points "Secret scan failed closed: " ++ message ++ points "."]
  | .ok kinds => .ok <| kinds.map fun kind =>
    points "Possible " ++ (kind.map fun c => if c = 95 then 32 else c) ++
      points " secret material in the diff."

structure GateResult where
  passed : Bool
  violations : List Str
  deriving DecidableEq

/-- The violations of the changed paths: malformed ones, or those that touch a protected pattern. -/
def pathGate (changedPaths : Option (List (Option Str))) (protectedPaths : List Str)
    (activeExemptions : List VerifiedProtectedPathExemption) : Except Str (List Str) :=
  match requireChangedPathList repr changedPaths with
  | .error message => .ok [malformedChangedPathsViolation message]
  | .ok canonicalPaths => protectedPathViolations repr canonicalPaths protectedPaths activeExemptions

/-- The violations of the text, `none` being a value that is no string. -/
def textGate (secretKinds : Str → Except SecretScanError (List Str)) (diffText : Option Str) :
    Except Str (List Str) :=
  match diffText with
  | some diffText => scanSecrets secretKinds diffText
  | none => .ok [points "Diff text is malformed: expected a string."]

/-- `evaluate_pre_push`; an error is the message of an exception that is not caught. -/
def evaluatePrePush (secretKinds : Str → Except SecretScanError (List Str)) (diffStat : DiffStat)
    (changedPaths : Option (List (Option Str))) (policy : EffectiveCodegenSafetyPolicy)
    (diffText : Option Str) (verifiedExemptions : List VerifiedProtectedPathExemption) :
    Except Str GateResult :=
  let rejected := !verifiedExemptions.isEmpty && !policy.runtimeWorkflowGenerationEnabled
  let exemptionViolations :=
    if rejected then
      [points ("Protected-path exemption rejected: runtime workflow generation " ++
        "is not enabled by the effective policy.")]
    else []
  let activeExemptions := if rejected then [] else verifiedExemptions
  let sizeViolations :=
    ((diffTooLarge diffStat policy.maxFiles policy.maxLines).map points).toList
  (pathGate repr changedPaths policy.protectedPaths activeExemptions).bind fun pathViolations =>
    (textGate secretKinds diffText).map fun textViolations =>
      let violations := exemptionViolations ++ sizeViolations ++ pathViolations ++ textViolations
      ⟨violations.isEmpty, violations⟩

end Apdl.Codegen.Safety
