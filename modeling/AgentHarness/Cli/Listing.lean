/-
The listing of the sessions (`render_session_list`): a header and a row for
each session, of fields between TABs. Its rows are read back as what was
listed (`renderSessionList_read`), and all of it is inert.
-/
import Mathlib.Data.Bool.AllAny
import AgentHarness.Cli.Notices
import AgentHarness.Cli.Shown
import AgentHarness.Lib.Table
import AgentHarness.SessionLog.Files

namespace AgentHarness.Cli

open Text SessionLog

def trailingFragmentWarning : String := "ignored incomplete trailing session data"

/-- `Display` of the errors of a listing. -/
def listErrorText : ListError → String
  | .storeUnavailable => "unable to list local sessions"
  | .inventoryTooLarge =>
    "local session inventory exceeds the supported list bound; remove old session files from the directory shown by 'harness session --help'"

def listedStatusText : ListedSessionStatus → String
  | .completed => "completed"
  | .failed => "failed"
  | .interrupted => "interrupted"
  | .busy => "busy"
  | .corrupt => "corrupt"
  | .unsupported => "unsupported"
  | .unavailable => "unavailable"

def createdAtText : Option UInt64 → String
  | none => "-"
  | some value => toString value.toNat

def renderSummary (entry : SessionSummary) : String :=
  entry.sessionId ++ "\t" ++ createdAtText entry.createdAtUnixMs ++ "\t" ++ listedStatusText entry.status ++ "\n"

def renderSessionList (entries : List SessionSummary) : String :=
  if entries.isEmpty then "No retained sessions.\n"
  else "SESSION\tCREATED_UNIX_MS\tSTATUS\n" ++ String.join (entries.map renderSummary)

/-! ## Reading it -/

def readListedStatus (field : List Char) : Option ListedSessionStatus :=
  [ListedSessionStatus.completed, .failed, .interrupted, .busy, .corrupt, .unsupported, .unavailable].find?
    fun status => (listedStatusText status).toList == field

def readCreatedAt (field : List Char) : Option UInt64 :=
  if field = ['-'] then none else some (UInt64.ofNat (Nat.ofDigitChars 10 field 0))

def readSummary : List (List Char) → Option (String × Option UInt64 × ListedSessionStatus)
  | [id, createdAt, status] => (readListedStatus status).map fun status => (String.ofList id, readCreatedAt createdAt, status)
  | _ => none

/-- The id, the time and the status of each row. -/
def readSessionList (text : String) : Option (List (String × Option UInt64 × ListedSessionStatus)) :=
  if text = "No retained sessions.\n" then some []
  else match Table.read '\n' '\t' text.toList with
    | header :: rows => if header = ["SESSION".toList, "CREATED_UNIX_MS".toList, "STATUS".toList] then rows.mapM readSummary else none
    | [] => none

def summaryFields (entry : SessionSummary) : List (List Char) :=
  [entry.sessionId.toList, (createdAtText entry.createdAtUnixMs).toList, (listedStatusText entry.status).toList]

def headerFields : List (List Char) := ["SESSION".toList, "CREATED_UNIX_MS".toList, "STATUS".toList]

section
variable {entry : SessionSummary} {entries : List SessionSummary}

theorem createdAtText_digits {c : Char} {createdAt : Option UInt64} (h : c ∈ (createdAtText createdAt).toList) :
    c = '-' ∨ c.isDigit = true := by
  cases createdAt with
  | none => exact .inl (by simpa [createdAtText] using h)
  | some value =>
    have htext : (createdAtText (some value)).toList = Nat.toDigits 10 value.toNat := Nat.toList_repr
    rw [htext] at h
    exact .inr (Nat.isDigit_of_mem_toDigits (by decide) (by decide) h)

theorem readCreatedAt_text (createdAt : Option UInt64) : readCreatedAt (createdAtText createdAt).toList = createdAt := by
  cases createdAt with
  | none => rfl
  | some value =>
    have htext : (createdAtText (some value)).toList = Nat.toDigits 10 value.toNat := Nat.toList_repr
    have hne : Nat.toDigits 10 value.toNat ≠ ['-'] := by
      intro heq
      have hdigit : '-'.isDigit = true :=
        Nat.isDigit_of_mem_toDigits (b := 10) (n := value.toNat) (by decide) (by decide) (by simp [heq])
      exact absurd hdigit (by decide)
    rw [readCreatedAt, htext, if_neg hne, Nat.ofDigitChars_ten_toDigits, UInt64.ofNat_toNat]

theorem readListedStatus_text (status : ListedSessionStatus) :
    readListedStatus (listedStatusText status).toList = some status := by
  cases status <;> decide

theorem readSummary_fields (entry : SessionSummary) :
    readSummary (summaryFields entry) = some (entry.sessionId, entry.createdAtUnixMs, entry.status) := by
  rw [summaryFields, readSummary, readListedStatus_text, Option.map_some, String.ofList_toList, readCreatedAt_text]

theorem validId_digits {id : String} (h : validId id = true) {c : Char} (hc : c ∈ id.toList) :
    c ∈ "0123456789abcdef".toList := (validSessionId_iff.mp h).2 c hc

/-- The id, the time and the status have no place where a row is cut. -/
theorem summaryFields_uncut (h : validId entry.sessionId = true) :
    ∀ field ∈ summaryFields entry, '\n' ∉ field ∧ '\t' ∉ field := by
  have hcreatedAt : ∀ c ∈ ['\n', '\t'], c ∉ (createdAtText entry.createdAtUnixMs).toList := by
    intro c hc hmem
    have hnone : ∀ c ∈ ['\n', '\t'], ¬(c = '-' ∨ c.isDigit = true) := List.all_iff_forall_prop.mp (by decide)
    exact hnone c hc (createdAtText_digits hmem)
  have hid : ∀ c ∈ ['\n', '\t'], c ∉ entry.sessionId.toList := by
    intro c hc hmem
    have hnone : ∀ c ∈ ['\n', '\t'], c ∉ "0123456789abcdef".toList := List.all_iff_forall_prop.mp (by decide)
    exact hnone c hc (validId_digits h hmem)
  have hstatus : ∀ status, '\n' ∉ (listedStatusText status).toList ∧ '\t' ∉ (listedStatusText status).toList := by
    intro status
    cases status <;> decide
  simp only [summaryFields, List.forall_mem_cons]
  exact ⟨⟨hid _ (by simp), hid _ (by simp)⟩, ⟨hcreatedAt _ (by simp), hcreatedAt _ (by simp)⟩, hstatus _, nofun⟩

theorem toList_renderSummary (entry : SessionSummary) :
    (renderSummary entry).toList = Table.row '\n' '\t' (summaryFields entry) := by
  have htab : "\t".toList = ['\t'] := by decide
  have hlf : "\n".toList = ['\n'] := by decide
  simp [renderSummary, Table.row, summaryFields, htab, hlf]

theorem toList_renderSessionList (hne : entries ≠ []) :
    (renderSessionList entries).toList = Table.text '\n' '\t' (headerFields :: entries.map summaryFields) := by
  have hheader : "SESSION\tCREATED_UNIX_MS\tSTATUS\n".toList = Table.row '\n' '\t' headerFields := by decide +kernel
  have hrows : (String.join (entries.map renderSummary)).toList =
      (entries.map summaryFields).flatMap (Table.row '\n' '\t') := by
    simp [List.flatMap_def, List.map_map, Function.comp_def, toList_renderSummary]
  have hempty : entries.isEmpty = false := by simpa using hne
  rw [renderSessionList, hempty, if_neg Bool.false_ne_true, String.toList_append, hheader, hrows]
  rfl

theorem mapM_readSummary (entries : List SessionSummary) : (entries.map summaryFields).mapM readSummary =
    some (entries.map fun entry => (entry.sessionId, entry.createdAtUnixMs, entry.status)) := by
  induction entries with
  | nil => rfl
  | cons entry entries ih =>
    rw [List.map_cons, List.mapM_cons, readSummary_fields, ih]
    rfl

/-- **A listing is read back**: its rows tell the sessions, in their order. -/
theorem renderSessionList_read (h : ∀ entry ∈ entries, validId entry.sessionId = true) :
    readSessionList (renderSessionList entries) =
      some (entries.map fun entry => (entry.sessionId, entry.createdAtUnixMs, entry.status)) := by
  by_cases hne : entries = []
  · subst hne
    rfl
  have hheader : headerFields ≠ [] ∧ ∀ field ∈ headerFields, '\n' ∉ field ∧ '\t' ∉ field := by decide
  have hrows : ∀ fields ∈ entries.map summaryFields, fields ≠ [] ∧ ∀ field ∈ fields, '\n' ∉ field ∧ '\t' ∉ field := by
    intro fields hmem
    obtain ⟨entry, hentry, rfl⟩ := List.mem_map.mp hmem
    exact ⟨List.cons_ne_nil _ _, summaryFields_uncut (h entry hentry)⟩
  have hread : Table.read '\n' '\t' (renderSessionList entries).toList = headerFields :: entries.map summaryFields := by
    rw [toList_renderSessionList hne]
    exact Table.read_text (by decide) (List.forall_mem_cons.mpr ⟨hheader, hrows⟩)
  have hother : renderSessionList entries ≠ "No retained sessions.\n" := by
    intro heq
    have hnone : Table.read '\n' '\t' "No retained sessions.\n".toList ≠ headerFields :: entries.map summaryFields := by
      have hread : Table.read '\n' '\t' "No retained sessions.\n".toList = [["No retained sessions.".toList]] := by
        decide +kernel
      rw [hread]
      intro heq
      exact absurd (List.cons.inj heq).1 (by decide)
    exact hnone (heq ▸ hread)
  rw [readSessionList, if_neg hother, hread]
  simp only [headerFields, if_true]
  exact mapM_readSummary entries

theorem renderSessionList_read_sample :
    readSessionList (renderSessionList
      [{ sessionId := "00112233445566778899aabbccddeeff", createdAtUnixMs := some 5, status := .completed, trailingFragment := false },
        { sessionId := "ffeeddccbbaa99887766554433221100", createdAtUnixMs := none, status := .corrupt, trailingFragment := false }]) =
      some [("00112233445566778899aabbccddeeff", some 5, .completed), ("ffeeddccbbaa99887766554433221100", none, .corrupt)] :=
  renderSessionList_read (by decide)

/-! ## What is sent -/

theorem createdAtText_inert (createdAt : Option UInt64) : Inert (createdAtText createdAt).toList := by
  refine inert_of_isPlain fun c hc => ?_
  have hplain : ∀ n < 128, Char.ofNat n = '-' ∨ (Char.ofNat n).isDigit = true → isPlain (Char.ofNat n) = true := by
    decide +kernel
  have hlt : c.toNat < 128 := by
    rcases createdAtText_digits hc with rfl | hdigit
    · decide
    · simp only [Char.isDigit, Bool.and_eq_true, decide_eq_true_eq] at hdigit
      exact Nat.lt_of_le_of_lt (UInt32.le_iff_toNat_le.mp hdigit.2) (by decide)
  have hc' := hplain c.toNat hlt
  rw [Char.ofNat_toNat] at hc'
  exact hc' (createdAtText_digits hc)

theorem renderSummary_inert (h : validId entry.sessionId = true) : Inert (renderSummary entry).toList := by
  have hstatus : ∀ status, Inert (listedStatusText status).toList := by
    intro status
    cases status <;> exact inert_literal rfl (by decide)
  simp only [renderSummary, String.toList_append, inert_append]
  exact ⟨⟨⟨⟨⟨inert_validId h, inert_literal rfl (by decide)⟩, createdAtText_inert _⟩, inert_literal rfl (by decide)⟩,
    hstatus _⟩, inert_literal rfl (by decide)⟩

theorem renderSessionList_inert (h : ∀ entry ∈ entries, validId entry.sessionId = true) :
    Inert (renderSessionList entries).toList := by
  unfold renderSessionList
  split
  · exact inert_literal rfl (by decide)
  · rw [String.toList_append, inert_append]
    refine ⟨inert_literal rfl (by decide), ?_⟩
    intro c hc
    simp only [String.toList_join, List.mem_flatMap, List.mem_map] at hc
    obtain ⟨_, ⟨entry, hentry, rfl⟩, hc⟩ := hc
    exact renderSummary_inert (h entry hentry) c hc

end

end AgentHarness.Cli
