/-
The stored credential (`credential.rs`): what a login and a refresh may
write, and what the two read paths accept.

The JSON library is not part of the repository. What is used of it here is
`SerdeJson`: reading a JSON value and the token endpoint's answers, and
writing and reading the record, where reading back what was written gives
the record.
-/
import AgentHarness.Lib.Base64
import AgentHarness.Lib.Except
import AgentHarness.Lib.Json.Value
import AgentHarness.Lib.Word

namespace AgentHarness.Auth

open Text Except

def authClaim : String := "https://api.openai.com/auth"
def schemaVersion : UInt8 := 1
def refreshWindowSeconds : UInt64 := 5 * 60

/-- `oauth.rs`: the token endpoint's answer to a login. -/
structure TokenResponse where
  accessToken : String
  refreshToken : String
  idToken : String
  expiresIn : Option Int64
  deriving DecidableEq

/-- `refresh.rs`: the token endpoint's answer to a refresh. -/
structure RefreshResponse where
  accessToken : Option String
  refreshToken : Option String
  idToken : Option String
  expiresIn : Option Int64
  deriving DecidableEq

structure CredentialRecord where
  schemaVersion : UInt8
  accessToken : String
  refreshToken : String
  idToken : String
  chatgptAccountId : String
  accessTokenExpiresAt : Option UInt64
  email : Option String
  plan : Option String
  deriving DecidableEq

inductive StoredCredentialError where
  | unsupportedVersion
  | malformed
  | expired
  deriving DecidableEq, Repr

inductive CredentialError where
  | malformedTokenSet
  | missingAccount
  | mismatchedAccount
  | invalidExpiry
  | serialization
  deriving DecidableEq, Repr

/-- What is used of the JSON library: `from_slice` at `Value`,
`WireTokenResponse` and `WireRefreshResponse`, and `to_vec` and `from_slice`
at the record. -/
structure SerdeJson where
  valueFromSlice : Bytes → Option Json
  wireTokenResponse : Bytes → Option TokenResponse
  wireRefreshResponse : Bytes → Option RefreshResponse
  toVec : CredentialRecord → Option Bytes
  fromSlice : Bytes → Option CredentialRecord
  fromSlice_toVec : ∀ {r b}, toVec r = some b → fromSlice b = some r

/-! ## Machine arithmetic -/

/-- `u64::checked_add` -/
def checkedAdd (a b : UInt64) : Option UInt64 := (Word.checkedAdd UInt64.size a.toNat b.toNat).map UInt64.ofNat

def saturatingAdd (a b : UInt64) : UInt64 := (checkedAdd a b).getD (UInt64.ofNat (UInt64.size - 1))

/-! ## Tokens and claims -/

/-- `HeaderValue::from_str` accepts a text when each byte is a tab, or is
at least `0x20` and not `0x7f`. -/
def headerValueFromStr (value : String) : Bool :=
  (utf8 value).all fun b => b == 9 || (b ≥ 0x20 && b != 0x7f)

def validHeaderComponent (value : String) : Bool :=
  !value.isEmpty && value == trim value && !value.toList.any isControl && headerValueFromStr value

def accountId (claims : Json) : Option String := do
  let auth ← claims.get authClaim
  let account ← (← auth.get "chatgpt_account_id").asStr
  if isBlank account then none else some (trim account)

def validateReturnedAccount (claims : Json) (storedAccountId : String) : Except CredentialError Unit :=
  rejectIf ((accountId claims).any (· != storedAccountId)) .mismatchedAccount

def expiry (claims : Json) : Option UInt64 := do (← claims.get "exp").asU64

def earliestDeadline : Option UInt64 → Option UInt64 → Option UInt64
  | some first, some second => some (min first second)
  | some deadline, none | none, some deadline => some deadline
  | none, none => none

/-- `now + expires_in`, for a positive `expires_in` and a sum that fits. -/
def responseExpiry (expiresIn : Option Int64) (now : UInt64) : Option UInt64 := do
  let seconds ← expiresIn.filter (· > 0)
  checkedAdd now seconds.toUInt64

def requiredReturnedToken (token : Option String) : Except CredentialError String :=
  okOr (token.filter (!isBlank ·)) .malformedTokenSet

def optionalRotatedToken (token : Option String) (stored : String) : Except CredentialError String :=
  match token with
  | some token => requiredReturnedToken (some token)
  | none => .ok stored

def safeClaim (value : Option Json) (maximumChars : Nat) : Option String := do
  let value := trim (← (← value).asStr)
  if value.isEmpty || value.length > maximumChars || value.toList.any isControl then none
  else some value

def displayMetadata (idClaims : Json) : Option String × Option String :=
  let email := safeClaim (idClaims.get "email") 254
  let plan := do
    let claim ← (← idClaims.get authClaim).asObject
    safeClaim (some (← claim.get "chatgpt_plan_type")) 64
  (email, plan)

section
variable (S : SerdeJson)

/-- The payload of a token of exactly three non-empty segments. -/
def decodeJwtPayload (token : String) : Option Json :=
  match split '.' token with
  | [header, payload, signature] =>
    if header.isEmpty || payload.isEmpty || signature.isEmpty then none
    else do S.valueFromSlice (← Base64.urlSafeNoPadDecode payload.toList)
  | _ => none

namespace CredentialRecord

/-- What a login stores. -/
def validate (response : TokenResponse) (now : UInt64) : Except CredentialError CredentialRecord := do
  rejectIf (isBlank response.accessToken || isBlank response.refreshToken || isBlank response.idToken)
    .malformedTokenSet
  let idClaims ← okOr (decodeJwtPayload S response.idToken) .malformedTokenSet
  let accessClaims := decodeJwtPayload S response.accessToken
  let idAccount := accountId idClaims
  let accessAccount := accessClaims.bind accountId
  rejectIf (idAccount.isSome && accessAccount.isSome && idAccount != accessAccount) .mismatchedAccount
  let chatgptAccountId ← okOr (idAccount.or accessAccount) .missingAccount
  let tokenExpiry := accessClaims.bind expiry
  let responseExpiry := responseExpiry response.expiresIn now
  let usableTokenExpiry := tokenExpiry.filter (· > now)
  rejectIf ((response.expiresIn.isSome || tokenExpiry.isSome) && responseExpiry.isNone &&
    usableTokenExpiry.isNone) .invalidExpiry
  let (email, plan) := displayMetadata idClaims
  return {
    schemaVersion := Auth.schemaVersion
    accessToken := response.accessToken
    refreshToken := response.refreshToken
    idToken := response.idToken
    chatgptAccountId
    accessTokenExpiresAt := earliestDeadline responseExpiry usableTokenExpiry
    email, plan }

def serialize (r : CredentialRecord) : Except CredentialError Bytes := okOr (S.toVec r) .serialization

/-- The status read path. -/
def deserialize (serialized : Bytes) (now : UInt64) : Except StoredCredentialError CredentialRecord := do
  let record ← okOr (S.fromSlice serialized) .malformed
  rejectIf (record.schemaVersion != Auth.schemaVersion) .unsupportedVersion
  rejectIf (!validHeaderComponent record.accessToken || !validHeaderComponent record.chatgptAccountId) .malformed
  rejectIf (record.accessTokenExpiresAt.any (· ≤ now)) .expired
  return record

/-- The record's own checks on the renewable read path, its version apart. -/
def structural (record : CredentialRecord) : Bool :=
  validHeaderComponent record.accessToken && validHeaderComponent record.chatgptAccountId &&
    !isBlank record.refreshToken && !isBlank record.idToken &&
    match decodeJwtPayload S record.idToken with
    | none => false
    | some idClaims =>
      [(decodeJwtPayload S record.accessToken).bind accountId, accountId idClaims].all
        fun tokenAccount => tokenAccount.all (· == record.chatgptAccountId)

/-- The renewable read path. -/
def deserializeStructural (serialized : Bytes) : Except StoredCredentialError CredentialRecord := do
  let record ← okOr (S.fromSlice serialized) .malformed
  rejectIf (record.schemaVersion != Auth.schemaVersion) .unsupportedVersion
  rejectIf (!record.structural S) .malformed
  return record

def refreshDue (r : CredentialRecord) (now : UInt64) : Bool :=
  r.accessTokenExpiresAt.all (· ≤ saturatingAdd now refreshWindowSeconds)

/-- The token and the display fields a refresh leaves: those of the
returned id token, or the stored ones. -/
def rotatedIdToken (r : CredentialRecord) (idToken : Option String) :
    Except CredentialError (String × Option String × Option String) :=
  match idToken with
  | some idToken => do
    rejectIf (isBlank idToken) .malformedTokenSet
    let claims ← okOr (decodeJwtPayload S idToken) .malformedTokenSet
    validateReturnedAccount claims r.chatgptAccountId
    let (email, plan) := displayMetadata claims
    return (idToken, email, plan)
  | none => .ok (r.idToken, r.email, r.plan)

/-- What a refresh replaces the record with. -/
def applyRefresh (r : CredentialRecord) (response : RefreshResponse) (now : UInt64) :
    Except CredentialError CredentialRecord := do
  let accessToken ← requiredReturnedToken response.accessToken
  rejectIf (!validHeaderComponent accessToken) .malformedTokenSet
  let accessClaims ← okOr (decodeJwtPayload S accessToken) .malformedTokenSet
  validateReturnedAccount accessClaims r.chatgptAccountId
  let refreshToken ← optionalRotatedToken response.refreshToken r.refreshToken
  let (idToken, email, plan) ← r.rotatedIdToken S response.idToken
  let accessTokenExpiresAt ←
    okOr (earliestDeadline (responseExpiry response.expiresIn now) (expiry accessClaims)) .invalidExpiry
  return {
    schemaVersion := Auth.schemaVersion
    accessToken, refreshToken, idToken
    chatgptAccountId := r.chatgptAccountId
    accessTokenExpiresAt := some accessTokenExpiresAt
    email, plan }

end CredentialRecord
end

/-! ## What the operations guarantee -/

variable {S : SerdeJson}

@[simp] theorem requiredReturnedToken_ok_iff {token : Option String} {t : String} :
    requiredReturnedToken token = .ok t ↔ token = some t ∧ isBlank t = false := by
  simp [requiredReturnedToken, Option.filter_eq_some_iff]

theorem optionalRotatedToken_ok {token : Option String} {stored t : String}
    (h : optionalRotatedToken token stored = .ok t) :
    t = token.getD stored ∧ (isBlank stored = false → isBlank t = false) := by
  cases token with
  | none =>
    simp only [optionalRotatedToken, Except.ok.injEq] at h
    subst h
    exact ⟨rfl, id⟩
  | some t' =>
    simp only [optionalRotatedToken, requiredReturnedToken_ok_iff, Option.some.injEq] at h
    obtain ⟨rfl, hb⟩ := h
    exact ⟨rfl, fun _ => hb⟩

@[simp] theorem validateReturnedAccount_ok_iff {claims : Json} {account : String} {u : Unit} :
    validateReturnedAccount claims account = .ok u ↔ (accountId claims).all (· == account) = true := by
  simp only [validateReturnedAccount, rejectIf_ok_iff]
  cases accountId claims <;> simp

namespace CredentialRecord

theorem deserializeStructural_ok_iff {b : Bytes} {r : CredentialRecord} :
    deserializeStructural S b = .ok r ↔
      S.fromSlice b = some r ∧ r.schemaVersion = Auth.schemaVersion ∧ r.structural S = true := by
  simp only [deserializeStructural, bind_ok_iff, okOr_ok_iff, rejectIf_ok_iff, pure_ok_iff]
  constructor
  · intro h
    obtain ⟨r', h, -, hv, -, hs, rfl⟩ := h
    exact ⟨h, by simpa using hv, by simpa using hs⟩
  · intro h
    obtain ⟨h, hv, hs⟩ := h
    exact ⟨r, h, ⟨⟩, by simp [hv], ⟨⟩, by simp [hs], rfl⟩

theorem structural_iff {r : CredentialRecord} : r.structural S = true ↔
    validHeaderComponent r.accessToken = true ∧ validHeaderComponent r.chatgptAccountId = true ∧
    isBlank r.refreshToken = false ∧ isBlank r.idToken = false ∧
    ((decodeJwtPayload S r.accessToken).bind accountId).all (· == r.chatgptAccountId) = true ∧
    ∃ idClaims, decodeJwtPayload S r.idToken = some idClaims ∧
      (accountId idClaims).all (· == r.chatgptAccountId) = true := by
  unfold structural
  cases decodeJwtPayload S r.idToken <;>
    simp only [Bool.and_eq_true, Bool.not_eq_true', and_assoc, List.all_cons, List.all_nil, and_true,
      Bool.false_eq_true, and_false, false_iff, Option.some.injEq, exists_eq_left']
  intro h
  obtain ⟨-, -, -, -, -, -, ⟨⟩, -⟩ := h

/-- The id token a refresh leaves is not blank, decodes, and names no
other account, when the stored one was so. -/
theorem rotatedIdToken_ok {r : CredentialRecord} {idToken : Option String} {res : String × Option String × Option String}
    (hs : r.structural S = true) (h : r.rotatedIdToken S idToken = .ok res) :
    isBlank res.1 = false ∧ ∃ claims, decodeJwtPayload S res.1 = some claims ∧
      (accountId claims).all (· == r.chatgptAccountId) = true := by
  cases idToken with
  | none =>
    simp only [rotatedIdToken, Except.ok.injEq] at h
    subst h
    obtain ⟨-, -, -, hb, -, hc⟩ := structural_iff.mp hs
    exact ⟨hb, hc⟩
  | some t =>
    simp only [rotatedIdToken, bind_ok_iff, rejectIf_ok_iff, okOr_ok_iff, validateReturnedAccount_ok_iff,
      pure_ok_iff] at h
    obtain ⟨-, hb, claims, hc, -, ha, rfl⟩ := h
    exact ⟨hb, claims, hc, ha⟩

section
variable {r r' : CredentialRecord} {response : RefreshResponse} {now : UInt64}

/-- A refresh takes the refresh token it is given and keeps its own otherwise. -/
theorem applyRefresh_refreshToken (h : r.applyRefresh S response now = .ok r') :
    r'.refreshToken = response.refreshToken.getD r.refreshToken := by
  simp only [applyRefresh, bind_ok_iff, okOr_ok_iff, rejectIf_ok_iff, pure_ok_iff] at h
  obtain ⟨_, -, -, -, _, -, -, -, t, ht, _, -, _, -, rfl⟩ := h
  exact (optionalRotatedToken_ok ht).1

theorem applyRefresh_accountId (h : r.applyRefresh S response now = .ok r') :
    r'.chatgptAccountId = r.chatgptAccountId := by
  simp only [applyRefresh, bind_ok_iff, okOr_ok_iff, rejectIf_ok_iff, pure_ok_iff] at h
  obtain ⟨_, -, -, -, _, -, -, -, _, -, _, -, _, -, rfl⟩ := h
  rfl

theorem applyRefresh_schemaVersion (h : r.applyRefresh S response now = .ok r') :
    r'.schemaVersion = Auth.schemaVersion := by
  simp only [applyRefresh, bind_ok_iff, okOr_ok_iff, rejectIf_ok_iff, pure_ok_iff] at h
  obtain ⟨_, -, -, -, _, -, -, -, _, -, _, -, _, -, rfl⟩ := h
  rfl

/-- **A refresh of a structurally valid record is structurally valid**: the
checks it makes of the fields it takes, and those the reader made of the
fields it keeps, are the reader's checks of the result. -/
theorem applyRefresh_structural (hs : r.structural S = true) (h : r.applyRefresh S response now = .ok r') :
    r'.structural S = true := by
  simp only [applyRefresh, bind_ok_iff, okOr_ok_iff, rejectIf_ok_iff, pure_ok_iff, Bool.not_eq_false',
    validateReturnedAccount_ok_iff] at h
  obtain ⟨access, -, -, hhdr, claims, hclaims, -, hacc, t, ht, id, hid, _, -, rfl⟩ := h
  obtain ⟨-, hahdr, hblank, -, -, -⟩ := structural_iff.mp hs
  obtain ⟨hidb, hidc⟩ := rotatedIdToken_ok hs hid
  refine structural_iff.mpr ⟨hhdr, hahdr, (optionalRotatedToken_ok ht).2 hblank, hidb, ?_, hidc⟩
  rw [hclaims]
  exact hacc

/-- What a refresh writes is read back as the record it made. -/
theorem deserializeStructural_refreshed {b : Bytes} (hs : r.structural S = true)
    (h : r.applyRefresh S response now = .ok r') (hb : r'.serialize S = .ok b) :
    deserializeStructural S b = .ok r' := by
  simp only [serialize, okOr_ok_iff] at hb
  exact deserializeStructural_ok_iff.mpr
    ⟨S.fromSlice_toVec hb, applyRefresh_schemaVersion h, applyRefresh_structural hs h⟩

end
end CredentialRecord

end AgentHarness.Auth
