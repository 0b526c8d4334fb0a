/-
A JSON library for the examples: readers and a writer of the fields of the
record and of the token endpoint's answers. A member that is no field is read
as any other value here, where the library of the program only skips it, so
that nothing but examples is said of this one.
-/
import AgentHarness.Auth.Credential
import AgentHarness.Lib.Json.Derive
import AgentHarness.Lib.Json.Render

namespace AgentHarness.Auth

open Text

namespace CredentialRecord

def fieldNames : List String :=
  ["schema_version", "access_token", "refresh_token", "id_token", "chatgpt_account_id", "access_token_expires_at",
    "email", "plan"]

def fieldValues (r : CredentialRecord) : List Json :=
  [Json.ofU8 r.schemaVersion, .str r.accessToken, .str r.refreshToken, .str r.idToken, .str r.chatgptAccountId,
    Json.ofOption Json.ofU64 r.accessTokenExpiresAt, Json.ofOption .str r.email, Json.ofOption .str r.plan]

def toJson (r : CredentialRecord) : Json := Json.ofFields fieldNames r.fieldValues

def ofJson (v : Json) : Option CredentialRecord := do
  match ← v.fields .ignored fieldNames with
  | [schemaVersion, accessToken, refreshToken, idToken, chatgptAccountId, accessTokenExpiresAt, email, plan] =>
    return {
      schemaVersion := ← Json.required Json.asU8 schemaVersion
      accessToken := ← Json.required Json.asStr accessToken
      refreshToken := ← Json.required Json.asStr refreshToken
      idToken := ← Json.required Json.asStr idToken
      chatgptAccountId := ← Json.required Json.asStr chatgptAccountId
      accessTokenExpiresAt := ← Json.optional Json.asU64 accessTokenExpiresAt
      email := ← Json.optional Json.asStr email
      plan := ← Json.optional Json.asStr plan }
  | _ => none

theorem ofJson_toJson (r : CredentialRecord) : ofJson r.toJson = some r := by
  have hf : r.toJson.fields .ignored fieldNames = some (r.fieldValues.map some) :=
    Json.fields_ofFields (by decide) rfl
  simp only [ofJson, hf, fieldValues, List.map_cons, List.map_nil, Option.bind_eq_bind, Option.bind_some,
    Json.required_some, Json.asU8_ofU8, Json.asStr_str, Json.optional_u64, Json.optional_str, Option.pure_def]

theorem toJson_integral (r : CredentialRecord) : r.toJson.Integral := by
  simp only [toJson, Json.ofFields, fieldNames, fieldValues, List.zip_cons_cons, List.zip_nil_right, Json.Integral,
    Json.IntegralMembers, Json.ofU8, Json.ofU64, Json.Number.Integral, true_and, and_true]
  refine ⟨?_, ?_, ?_⟩
  · cases r.accessTokenExpiresAt <;> trivial
  · cases r.email <;> trivial
  · cases r.plan <;> trivial

theorem toJson_depth (r : CredentialRecord) : r.toJson.depth ≤ Json.maxDepth := by
  have hopt : ∀ x : Option String, (Json.ofOption .str x).depth = 0 := fun x => by cases x <;> rfl
  have hu : ∀ x : Option UInt64, (Json.ofOption Json.ofU64 x).depth = 0 := fun x => by cases x <;> rfl
  simp only [toJson, Json.ofFields, fieldNames, fieldValues, List.zip_cons_cons, List.zip_nil_right, Json.depth,
    Json.depthMembers, hopt, hu, Json.ofU8, Json.ofU64]
  decide

end CredentialRecord

/-! ## Answers of the token endpoint -/

def tokenFields : List String := ["access_token", "refresh_token", "id_token", "expires_in"]

def TokenResponse.ofJson (v : Json) : Option TokenResponse := do
  match ← v.fields .ignored tokenFields with
  | [accessToken, refreshToken, idToken, expiresIn] =>
    return {
      accessToken := ← Json.required Json.asStr accessToken
      refreshToken := ← Json.required Json.asStr refreshToken
      idToken := ← Json.required Json.asStr idToken
      expiresIn := ← Json.optional Json.asI64 expiresIn }
  | _ => none

def RefreshResponse.ofJson (v : Json) : Option RefreshResponse := do
  match ← v.fields .ignored tokenFields with
  | [accessToken, refreshToken, idToken, expiresIn] =>
    return {
      accessToken := ← Json.optional Json.asStr accessToken
      refreshToken := ← Json.optional Json.asStr refreshToken
      idToken := ← Json.optional Json.asStr idToken
      expiresIn := ← Json.optional Json.asI64 expiresIn }
  | _ => none

/-- The library of the examples. -/
def serdeJson : SerdeJson where
  valueFromSlice := Json.parse
  wireTokenResponse b := (Json.parse b).bind TokenResponse.ofJson
  wireRefreshResponse b := (Json.parse b).bind RefreshResponse.ofJson
  toVec r := some (Json.render r.toJson)
  fromSlice b := (Json.parse b).bind CredentialRecord.ofJson
  fromSlice_toVec {r b} h := by
    cases h
    rw [Json.parse_render r.toJson_integral r.toJson_depth, Option.bind_some, CredentialRecord.ofJson_toJson]

/-! ## A record and its refresh -/

def sampleRecord : CredentialRecord where
  schemaVersion := 1
  accessToken := "a.e30.a"
  refreshToken := "first"
  idToken := "a.e30.a"
  chatgptAccountId := "account"
  accessTokenExpiresAt := some 1000
  email := none
  plan := none

def sampleResponse : RefreshResponse where
  accessToken := some "b.e30.b"
  refreshToken := some "second"
  idToken := none
  expiresIn := some 3600

def sampleRefreshed : CredentialRecord :=
  { sampleRecord with accessToken := "b.e30.b", refreshToken := "second", accessTokenExpiresAt := some 4600 }

theorem sample_due : sampleRecord.refreshDue 1000 = true := by decide

theorem sample_notDue : sampleRecord.refreshDue 0 = false := by decide

theorem sample_applyRefresh : sampleRecord.applyRefresh serdeJson sampleResponse 1000 = .ok sampleRefreshed := by
  decide

theorem sample_stored : CredentialRecord.deserializeStructural serdeJson (Json.render sampleRecord.toJson) =
    .ok sampleRecord :=
  CredentialRecord.deserializeStructural_ok_iff.mpr ⟨serdeJson.fromSlice_toVec rfl, rfl, by decide⟩

/-- What the token endpoint answers a login to another account with. -/
def sampleLogin : TokenResponse where
  accessToken := "c.e30.c"
  refreshToken := "other"
  idToken := "a.eyJodHRwczovL2FwaS5vcGVuYWkuY29tL2F1dGgiOnsiY2hhdGdwdF9hY2NvdW50X2lkIjoib3RoZXIifX0.a"
  expiresIn := some 3600

def sampleLoggedIn : CredentialRecord where
  schemaVersion := 1
  accessToken := sampleLogin.accessToken
  refreshToken := sampleLogin.refreshToken
  idToken := sampleLogin.idToken
  chatgptAccountId := "other"
  accessTokenExpiresAt := some 4600
  email := none
  plan := none

theorem sample_validate : CredentialRecord.validate serdeJson sampleLogin 1000 = .ok sampleLoggedIn := by
  decide +kernel

theorem sample_loggedIn : CredentialRecord.deserializeStructural serdeJson (Json.render sampleLoggedIn.toJson) =
    .ok sampleLoggedIn :=
  CredentialRecord.deserializeStructural_ok_iff.mpr ⟨serdeJson.fromSlice_toVec rfl, rfl, by decide +kernel⟩

end AgentHarness.Auth
