/-
When a refresh is due: as soon as a deadline that is known of the stored
access token is within five minutes (`refreshDue_of_deadline`). A login
passes over an `exp` that is not after the time of the login, a refresh
does not (`refreshDue_passed_claim`).
-/
import AgentHarness.Auth.Stored

namespace AgentHarness.Auth

open Text Except

variable {S : SerdeJson}

/-! ## The sums -/

theorem toNat_saturatingAdd (a b : UInt64) :
    (saturatingAdd a b).toNat = min (a.toNat + b.toNat) (UInt64.size - 1) := by
  unfold saturatingAdd
  cases hsum : checkedAdd a b with
  | some c =>
    have hlt := c.toNat_lt
    rw [checkedAdd_eq_some_iff.mp hsum] at hlt
    have hsize : UInt64.size = 2 ^ 64 := rfl
    show c.toNat = _
    rw [checkedAdd_eq_some_iff.mp hsum]
    omega
  | none =>
    have hlarge : ¬ a.toNat + b.toNat < UInt64.size := by
      intro hfits
      rw [checkedAdd, Word.checkedAdd_of_lt hfits] at hsum
      cases hsum
    show UInt64.size - 1 = _
    omega

/-- The cast of a positive number of seconds keeps it. -/
theorem toNat_seconds {seconds : Int64} (h : 0 < seconds) : (seconds.toUInt64.toNat : Int) = seconds.toInt := by
  have hpos : 0 < seconds.toInt := Int64.lt_iff_toInt_lt.mp h
  rw [Int64.toNat_toUInt64_of_le (Int64.le_of_lt h)]
  exact Int.toNat_of_nonneg (by omega)

/-- What is known from `expires_in`: the sum itself, when the seconds are positive and it fits. -/
theorem responseExpiry_eq_some_iff {expiresIn : Option Int64} {now t : UInt64} :
    responseExpiry expiresIn now = some t ↔
      ∃ seconds ∈ expiresIn, 0 < seconds ∧ (t.toNat : Int) = now.toNat + seconds.toInt := by
  simp only [responseExpiry, Option.bind_eq_bind, Option.bind_eq_some_iff, Option.filter_eq_some_iff,
    checkedAdd_eq_some_iff, decide_eq_true_eq, and_assoc]
  refine exists_congr fun seconds => and_congr_right fun _ => and_congr_right fun hpos => ?_
  have hcast := toNat_seconds hpos
  omega

/-! ## The earliest -/

theorem earliestDeadline_le {first second : Option UInt64} {e : UInt64} (h : earliestDeadline first second = some e) :
    ∀ d, d ∈ first ∨ d ∈ second → e ≤ d := by
  intro d hd
  cases first with
  | none =>
    cases second with
    | none => cases h
    | some d₂ =>
      cases h
      obtain hd | hd := hd
      · cases hd
      · cases hd
        exact UInt64.le_refl _
  | some d₁ =>
    cases second with
    | none =>
      cases h
      obtain hd | hd := hd
      · cases hd
        exact UInt64.le_refl _
      · cases hd
    | some d₂ =>
      cases h
      obtain hd | hd := hd
      · cases hd
        exact Std.min_le_left
      · cases hd
        exact Std.min_le_right

namespace CredentialRecord

variable {r record : CredentialRecord} {now t d : UInt64}

theorem refreshDue_iff :
    record.refreshDue t = true ↔ ∀ e ∈ record.accessTokenExpiresAt, e.toNat ≤ t.toNat + refreshWindowSeconds.toNat := by
  unfold refreshDue
  cases record.accessTokenExpiresAt with
  | none => simp
  | some e =>
    have hlt := e.toNat_lt
    have hsize : UInt64.size = 2 ^ 64 := rfl
    simp only [Option.all_some, decide_eq_true_eq, Option.mem_def, Option.some.injEq, forall_eq', UInt64.le_iff_toNat_le,
      toNat_saturatingAdd]
    omega

/-- A deadline that is known of an answer of the token endpoint: what its
`expires_in` says, or what its access token does. -/
def Determinable (S : SerdeJson) (expiresIn : Option Int64) (accessToken : String) (now d : UInt64) : Prop :=
  (∃ seconds ∈ expiresIn, 0 < seconds ∧ (d.toNat : Int) = now.toNat + seconds.toInt) ∨
    (decodeJwtPayload S accessToken).bind expiry = some d

theorem determinable_iff {expiresIn : Option Int64} {accessToken : String} :
    Determinable S expiresIn accessToken now d ↔
      d ∈ responseExpiry expiresIn now ∨ d ∈ (decodeJwtPayload S accessToken).bind expiry := by
  rw [Determinable, ← responseExpiry_eq_some_iff]
  rfl

/-- The record of a login has the earliest deadline there is after the login. -/
theorem validate_expiresAt {response : TokenResponse} (h : validate S response now = .ok record) :
    record.accessToken = response.accessToken ∧
    record.accessTokenExpiresAt = earliestDeadline (responseExpiry response.expiresIn now)
      (((decodeJwtPayload S response.accessToken).bind expiry).filter (· > now)) := by
  simp only [validate, bind_ok_iff, rejectIf_ok_iff, okOr_ok_iff, pure_ok_iff] at h
  obtain ⟨-, -, idClaims, -, -, -, account, -, -, -, rfl⟩ := h
  exact ⟨rfl, rfl⟩

/-- The record of a refresh has the earliest deadline there is. -/
theorem applyRefresh_earliest {response : RefreshResponse} (h : r.applyRefresh S response now = .ok record) :
    record.accessTokenExpiresAt = earliestDeadline (responseExpiry response.expiresIn now)
      ((decodeJwtPayload S record.accessToken).bind expiry) := by
  simp only [applyRefresh, bind_ok_iff, okOr_ok_iff, rejectIf_ok_iff, pure_ok_iff] at h
  obtain ⟨_, -, -, -, claims, hclaims, -, -, _, -, _, -, e, he, rfl⟩ := h
  show some e = _
  rw [hclaims, ← he]
  rfl

/-- A record with the earliest of some deadlines is due once any of them is close. -/
theorem refreshDue_of_earliest {first second : Option UInt64}
    (h : record.accessTokenExpiresAt = earliestDeadline first second) (hd : d ∈ first ∨ d ∈ second)
    (hclose : d.toNat ≤ t.toNat + refreshWindowSeconds.toNat) : record.refreshDue t = true := by
  rw [refreshDue_iff, h]
  intro e he
  have hle := UInt64.le_iff_toNat_le.mp (earliestDeadline_le he d hd)
  omega

theorem validate_due {response : TokenResponse} (h : validate S response now = .ok record)
    (hd : Determinable S response.expiresIn record.accessToken now d) (hafter : now < d)
    (hclose : d.toNat ≤ t.toNat + refreshWindowSeconds.toNat) : record.refreshDue t = true := by
  obtain ⟨htoken, hexpiry⟩ := validate_expiresAt h
  rw [htoken] at hd
  refine refreshDue_of_earliest hexpiry ?_ hclose
  obtain hd | hd := determinable_iff.mp hd
  · exact .inl hd
  · exact .inr (Option.filter_eq_some_iff.mpr ⟨hd, by simpa using hafter⟩)

theorem applyRefresh_due {response : RefreshResponse} (h : r.applyRefresh S response now = .ok record)
    (hd : Determinable S response.expiresIn record.accessToken now d)
    (hclose : d.toNat ≤ t.toNat + refreshWindowSeconds.toNat) : record.refreshDue t = true :=
  refreshDue_of_earliest (applyRefresh_earliest h) (determinable_iff.mp hd) hclose

/-- **A refresh is due before any deadline that is known**, whichever path
wrote the record: a login knows those after its own time. No sum wraps. -/
theorem refreshDue_of_deadline (S : SerdeJson) (now t : UInt64) :
    (∀ (response : TokenResponse) (record : CredentialRecord) (d : UInt64), validate S response now = .ok record →
      Determinable S response.expiresIn record.accessToken now d → now < d → d.toNat ≤ t.toNat + 300 →
      record.refreshDue t = true) ∧
    (∀ (r : CredentialRecord) (response : RefreshResponse) (record : CredentialRecord) (d : UInt64),
      r.applyRefresh S response now = .ok record → Determinable S response.expiresIn record.accessToken now d →
      d.toNat ≤ t.toNat + 300 → record.refreshDue t = true) ∧
    (∀ (seconds : Int64) (e : UInt64), responseExpiry (some seconds) now = some e ↔
      0 < seconds ∧ (e.toNat : Int) = now.toNat + seconds.toInt) ∧
    (saturatingAdd t refreshWindowSeconds).toNat = min (t.toNat + 300) (UInt64.size - 1) := by
  refine ⟨?_, ?_, ?_, toNat_saturatingAdd t refreshWindowSeconds⟩
  · intro response record d hlogin hd hafter hclose
    exact validate_due hlogin hd hafter hclose
  · intro r response record d hrefresh hd hclose
    exact applyRefresh_due hrefresh hd hclose
  · intro seconds e
    rw [responseExpiry_eq_some_iff]
    simp

/-- The sample records, of a login and of a refresh at 1000, are due at 4300. -/
theorem refreshDue_of_deadline_sample : sampleLoggedIn.refreshDue 4300 = true ∧ sampleRefreshed.refreshDue 4300 = true := by
  have hdeadline : ∀ token, Determinable serdeJson (some 3600) token 1000 4600 :=
    fun _ => .inl ⟨3600, rfl, by decide, by decide⟩
  obtain ⟨hlogin, hrefresh, -⟩ := refreshDue_of_deadline serdeJson 1000 4300
  exact ⟨hlogin sampleLogin _ 4600 sample_validate (hdeadline _) (by decide) (by decide),
    hrefresh sampleRecord sampleResponse _ 4600 sample_applyRefresh (hdeadline _) (by decide)⟩

/-- A login at 1000 with an access token whose `exp` is 500 and an hour to
go is stored, and its refresh is not due. -/
theorem refreshDue_passed_claim :
    validate serdeJson { sampleLogin with accessToken := "c.eyJleHAiOjUwMH0.c" } 1000 =
        .ok { sampleLoggedIn with accessToken := "c.eyJleHAiOjUwMH0.c" } ∧
      Determinable serdeJson (some 3600) "c.eyJleHAiOjUwMH0.c" 1000 500 ∧
      CredentialRecord.refreshDue { sampleLoggedIn with accessToken := "c.eyJleHAiOjUwMH0.c" } 1000 = false :=
  ⟨by decide +kernel, .inr (by decide +kernel), by decide⟩

end CredentialRecord

end AgentHarness.Auth
