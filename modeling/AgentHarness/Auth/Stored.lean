/-
What is stored can be read back: a login's credential, as long as its
access token and its account can stand in a header, and what any refreshes
make of a record that was accepted, which stays bound to its account.
-/
import Mathlib.Data.List.Induction
import AgentHarness.Auth.Serde

namespace AgentHarness.Auth

open Text Except

variable {S : SerdeJson}

/-! ## Deadlines -/

theorem checkedAdd_eq_some_iff {a b c : UInt64} : checkedAdd a b = some c ↔ c.toNat = a.toNat + b.toNat := by
  simp only [checkedAdd, Option.map_eq_some_iff, Word.checkedAdd_eq_some_iff]
  constructor
  · rintro ⟨_, ⟨hfits, rfl⟩, rfl⟩
    exact UInt64.toNat_ofNat_of_lt' hfits
  · intro h
    exact ⟨c.toNat, ⟨h ▸ c.toNat_lt, h.symm⟩, UInt64.ofNat_toNat⟩

theorem lt_responseExpiry {expiresIn : Option Int64} {now t : UInt64} (h : responseExpiry expiresIn now = some t) :
    now < t := by
  obtain ⟨seconds, hs, ht⟩ := Option.bind_eq_some_iff.mp h
  obtain ⟨-, hpos⟩ := Option.filter_eq_some_iff.mp hs
  have hsum := checkedAdd_eq_some_iff.mp ht
  have hne : seconds.toUInt64.toNat ≠ 0 := by
    intro hzero
    obtain ⟨word⟩ := seconds
    obtain rfl : word = 0 := UInt64.toNat_inj.mp hzero
    exact absurd hpos (by decide)
  rw [UInt64.lt_iff_toNat_lt, hsum]
  omega

theorem earliestDeadline_all {p : UInt64 → Prop} {first second : Option UInt64} (h₁ : ∀ t ∈ first, p t)
    (h₂ : ∀ t ∈ second, p t) : ∀ t ∈ earliestDeadline first second, p t := by
  intro t ht
  cases first with
  | none =>
    cases second with
    | none => exact nomatch ht
    | some t₂ => exact h₂ t ht
  | some t₁ =>
    cases second with
    | none => exact h₁ t ht
    | some t₂ =>
      cases ht
      rcases Std.min_eq_or (a := t₁) (b := t₂) with h | h
      · rw [h]; exact h₁ t₁ rfl
      · rw [h]; exact h₂ t₂ rfl

/-! ## What the read paths accept -/

namespace CredentialRecord

/-- The account a login is for: the id token's, else the access token's. -/
def loginAccount (S : SerdeJson) (response : TokenResponse) : Option String :=
  ((decodeJwtPayload S response.idToken).bind accountId).or ((decodeJwtPayload S response.accessToken).bind accountId)

theorem deserialize_ok_iff {b : Bytes} {now : UInt64} {r : CredentialRecord} :
    deserialize S b now = .ok r ↔ S.fromSlice b = some r ∧ r.schemaVersion = Auth.schemaVersion ∧
      (validHeaderComponent r.accessToken = true ∧ validHeaderComponent r.chatgptAccountId = true) ∧
      ∀ t ∈ r.accessTokenExpiresAt, now < t := by
  have hexpiry : ∀ x : Option UInt64, (x.any fun t => decide (t ≤ now)) = false ↔ ∀ t ∈ x, now < t := by
    intro x
    cases x <;> simp
  simp only [deserialize, bind_ok_iff, okOr_ok_iff, rejectIf_ok_iff, pure_ok_iff, hexpiry]
  constructor
  · intro h
    obtain ⟨r', h, -, hv, -, hh, -, ht, rfl⟩ := h
    exact ⟨h, by simpa using hv, by simpa using hh, ht⟩
  · intro h
    obtain ⟨h, hv, hh, ht⟩ := h
    exact ⟨r, h, ⟨⟩, by simpa using hv, ⟨⟩, by simpa using hh, ⟨⟩, ht, rfl⟩

/-! ## Logins -/

section
variable {response : TokenResponse} {now : UInt64} {r : CredentialRecord}

/-- Two claims that do not contradict each other both name the account that is taken from them. -/
theorem accounts_agree {x y : Option String} {account : String} (hsame : (x.isSome && y.isSome && x != y) = false)
    (h : x.or y = some account) : x.all (· == account) = true ∧ y.all (· == account) = true := by
  cases x with
  | none =>
    rw [Option.none_or] at h
    subst h
    simp
  | some a =>
    obtain rfl : a = account := by simpa using h
    cases y with
    | none => simp
    | some a' =>
      have ha : a = a' := by simpa using hsame
      simp [ha]

/-- What a login makes sure of. -/
theorem validate_ok (h : validate S response now = .ok r) :
    r.schemaVersion = Auth.schemaVersion ∧ r.accessToken = response.accessToken ∧
    loginAccount S response = some r.chatgptAccountId ∧ isBlank r.refreshToken = false ∧ isBlank r.idToken = false ∧
    ((decodeJwtPayload S r.accessToken).bind accountId).all (· == r.chatgptAccountId) = true ∧
    (∃ idClaims, decodeJwtPayload S r.idToken = some idClaims ∧
      (accountId idClaims).all (· == r.chatgptAccountId) = true) ∧
    ∀ t ∈ r.accessTokenExpiresAt, now < t := by
  simp only [validate, bind_ok_iff, rejectIf_ok_iff, okOr_ok_iff, pure_ok_iff, Bool.or_eq_false_iff] at h
  obtain ⟨-, ⟨⟨-, hrefresh⟩, hid⟩, idClaims, hclaims, -, hsame, account, haccount, -, -, rfl⟩ := h
  have hexpiry : ∀ t ∈ earliestDeadline (responseExpiry response.expiresIn now)
      (((decodeJwtPayload S response.accessToken).bind expiry).filter (· > now)), now < t :=
    earliestDeadline_all (fun t ht => lt_responseExpiry ht) fun t ht => by
      simpa using (Option.filter_eq_some_iff.mp ht).2
  obtain ⟨hidAccount, haccessAccount⟩ := accounts_agree hsame haccount
  refine ⟨rfl, rfl, ?_, hrefresh, hid, haccessAccount, ⟨idClaims, hclaims, hidAccount⟩, hexpiry⟩
  rw [loginAccount, hclaims]
  exact haccount

/-- **A login is read back** on both paths exactly when its access token and
its account can stand in a header: login itself does not look at that. -/
theorem login_readBack (h : validate S response now = .ok r) {b : Bytes} (hb : r.serialize S = .ok b) :
    (deserialize S b now = .ok r ∧ deserializeStructural S b = .ok r) ↔
      validHeaderComponent response.accessToken = true ∧
        ∀ account ∈ loginAccount S response, validHeaderComponent account = true := by
  obtain ⟨hversion, htoken, haccount, hrefresh, hid, haccess, hclaims, hexpiry⟩ := validate_ok h
  have hslice : S.fromSlice b = some r := S.fromSlice_toVec (okOr_ok_iff.mp hb)
  have hheaders : (∀ account ∈ loginAccount S response, validHeaderComponent account = true) ↔
      validHeaderComponent r.chatgptAccountId = true := by
    rw [haccount]
    simp
  rw [hheaders, ← htoken, deserialize_ok_iff, deserializeStructural_ok_iff, structural_iff]
  constructor
  · intro h
    obtain ⟨⟨-, -, hh, -⟩, -⟩ := h
    exact hh
  · intro hh
    exact ⟨⟨hslice, hversion, hh, hexpiry⟩, hslice, hversion, hh.1, hh.2, hrefresh, hid, haccess, hclaims⟩

/-- A login for the other account, read back. -/
theorem login_readBack_sample :
    deserialize serdeJson (Json.render sampleLoggedIn.toJson) 1000 = .ok sampleLoggedIn ∧
      deserializeStructural serdeJson (Json.render sampleLoggedIn.toJson) = .ok sampleLoggedIn :=
  (login_readBack sample_validate rfl).mpr (by decide +kernel)

/-- A login whose access token ends in a new line is stored, and no read path accepts it. -/
theorem login_unreadable :
    validate serdeJson { sampleLogin with accessToken := "c.e30.c\n" } 1000 =
        .ok { sampleLoggedIn with accessToken := "c.e30.c\n" } ∧
      ∃ b, serialize serdeJson { sampleLoggedIn with accessToken := "c.e30.c\n" } = .ok b ∧
        deserialize serdeJson b 1000 = .error .malformed ∧ deserializeStructural serdeJson b = .error .malformed := by
  refine ⟨by decide +kernel, _, rfl, by decide +kernel, by decide +kernel⟩

end

/-! ## Refreshes -/

/-- The record after some responses, each at its time; one that is refused changes nothing. -/
def refreshed (S : SerdeJson) (r : CredentialRecord) (history : List (RefreshResponse × UInt64)) : CredentialRecord :=
  history.foldl (fun r x => (r.applyRefresh S x.1 x.2).toOption.getD r) r

section
variable {r r' : CredentialRecord} {response : RefreshResponse} {now : UInt64}

theorem applyRefresh_expiresAt (h : r.applyRefresh S response now = .ok r') : r'.accessTokenExpiresAt.isSome = true := by
  simp only [applyRefresh, bind_ok_iff, okOr_ok_iff, rejectIf_ok_iff, pure_ok_iff] at h
  obtain ⟨_, -, -, -, _, -, -, -, _, -, _, -, _, -, rfl⟩ := h
  rfl

/-- What refreshes keep of a record that was accepted: the reader's checks
and the account; and the expiry is known once a response was not refused. -/
structure Bound (S : SerdeJson) (r₀ r : CredentialRecord) (history : List (RefreshResponse × UInt64)) : Prop where
  version : r.schemaVersion = Auth.schemaVersion
  structural : r.structural S = true
  account : r.chatgptAccountId = r₀.chatgptAccountId
  expiry : r.accessTokenExpiresAt.isSome = true ∨
    (r = r₀ ∧ ∀ x ∈ history, ∃ e, r₀.applyRefresh S x.1 x.2 = .error e)

theorem Bound.snoc {r₀ : CredentialRecord} {history : List (RefreshResponse × UInt64)} (h : Bound S r₀ r history) :
    Bound S r₀ ((r.applyRefresh S response now).toOption.getD r) (history ++ [(response, now)]) := by
  cases happly : r.applyRefresh S response now with
  | ok r' => exact {
      version := applyRefresh_schemaVersion happly
      structural := applyRefresh_structural h.structural happly
      account := (applyRefresh_accountId happly).trans h.account
      expiry := .inl (applyRefresh_expiresAt happly) }
  | error e =>
    refine { h with expiry := h.expiry.imp_right ?_ }
    intro h
    obtain ⟨rfl, hrefused⟩ := h
    refine ⟨rfl, fun x hx => ?_⟩
    rcases List.mem_append.mp hx with hx | hx
    · exact hrefused x hx
    · rw [List.mem_singleton.mp hx]
      exact ⟨e, happly⟩

theorem refreshed_bound {r₀ : CredentialRecord} (hv : r₀.schemaVersion = Auth.schemaVersion)
    (hs : r₀.structural S = true) (history : List (RefreshResponse × UInt64)) :
    Bound S r₀ (refreshed S r₀ history) history := by
  induction history using List.reverseRecOn with
  | nil => exact ⟨hv, hs, rfl, .inr ⟨rfl, fun _ hx => nomatch hx⟩⟩
  | append_singleton history x ih =>
    rw [refreshed, List.foldl_append]
    exact ih.snoc

/-- **No refresh moves a credential to another account**, or to a record
the read paths reject before it expires. -/
theorem refreshed_account {b₀ : Bytes} {r₀ : CredentialRecord} (h₀ : deserializeStructural S b₀ = .ok r₀)
    (history : List (RefreshResponse × UInt64)) :
    (refreshed S r₀ history).chatgptAccountId = r₀.chatgptAccountId ∧
    ((decodeJwtPayload S (refreshed S r₀ history).accessToken).bind accountId).all (· == r₀.chatgptAccountId) = true ∧
    ((decodeJwtPayload S (refreshed S r₀ history).idToken).bind accountId).all (· == r₀.chatgptAccountId) = true ∧
    isBlank (refreshed S r₀ history).refreshToken = false ∧
    ((refreshed S r₀ history).accessTokenExpiresAt.isSome = true ∨
      (refreshed S r₀ history = r₀ ∧ ∀ x ∈ history, ∃ e, r₀.applyRefresh S x.1 x.2 = .error e)) ∧
    ∀ b, (refreshed S r₀ history).serialize S = .ok b →
      deserializeStructural S b = .ok (refreshed S r₀ history) ∧
      ∀ t, (∀ expiry ∈ (refreshed S r₀ history).accessTokenExpiresAt, t < expiry) →
        deserialize S b t = .ok (refreshed S r₀ history) := by
  obtain ⟨-, hv, hs⟩ := deserializeStructural_ok_iff.mp h₀
  have h := refreshed_bound hv hs history
  generalize refreshed S r₀ history = r at h ⊢
  obtain ⟨haccess, haccount, hrefresh, -, haccessClaim, idClaims, hid, hidClaim⟩ := structural_iff.mp h.structural
  rw [h.account] at haccessClaim hidClaim
  refine ⟨h.account, haccessClaim, ?_, hrefresh, h.expiry, fun b hb => ?_⟩
  · rw [hid]
    exact hidClaim
  · have hslice : S.fromSlice b = some r := S.fromSlice_toVec (okOr_ok_iff.mp hb)
    exact ⟨deserializeStructural_ok_iff.mpr ⟨hslice, h.version, h.structural⟩,
      fun t ht => deserialize_ok_iff.mpr ⟨hslice, h.version, ⟨haccess, haccount⟩, ht⟩⟩

/-- The sample record, refreshed once, is usable until its new expiry. -/
theorem refreshed_account_sample : deserialize serdeJson (Json.render sampleRefreshed.toJson) 4599 = .ok sampleRefreshed := by
  have hone : refreshed serdeJson sampleRecord [(sampleResponse, 1000)] = sampleRefreshed := by
    simp only [refreshed, List.foldl_cons, List.foldl_nil, sample_applyRefresh, Except.toOption, Option.getD_some]
  have h := refreshed_account sample_stored [(sampleResponse, 1000)]
  rw [hone] at h
  have hbefore : ∀ expiry ∈ sampleRefreshed.accessTokenExpiresAt, 4599 < expiry := by
    intro expiry he
    cases he
    decide
  exact (h.2.2.2.2.2 _ rfl).2 4599 hbefore

/-- A record with no expiry is accepted, and before its first refresh its expiry is not known. -/
theorem unrefreshed_expiry :
    (deserializeStructural serdeJson (Json.render { sampleRecord with accessTokenExpiresAt := none }.toJson) =
      .ok { sampleRecord with accessTokenExpiresAt := none }) ∧
    (refreshed serdeJson { sampleRecord with accessTokenExpiresAt := none } []).accessTokenExpiresAt = none :=
  ⟨deserializeStructural_ok_iff.mpr ⟨serdeJson.fromSlice_toVec rfl, rfl, by decide⟩, rfl⟩

end

end CredentialRecord

end AgentHarness.Auth
