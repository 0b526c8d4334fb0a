/-
A session on the terminal (`render_session`): the lines of its own are plain,
and what was asked and what came of it are rendered as a model's text is.
-/
import AgentHarness.Cli.Render
import AgentHarness.SessionLog.Projection

namespace AgentHarness.Cli

open Text SessionLog

def statusText : SessionStatus → String
  | .completed => "completed"
  | .failed => "failed"
  | .interrupted => "interrupted"

def renderSession (shown : ShowResult) : String :=
  let projection := shown.projection
  let rendered :=
    "Session: " ++ projection.sessionId ++ "\nStatus: " ++ statusText projection.status ++
      "\nProvider: openai-codex\n\nUser:\n" ++ renderModelText projection.prompt
  match projection.terminal with
  | some (.assistant answer) => rendered ++ "\nAssistant:\n" ++ renderModelText answer
  | some (.failure failure) => rendered ++ "\nFailure: " ++ renderModelText failure.diagnostic
  | none => rendered

/-! ## What is sent -/

/-- An id is of digits and letters. -/
theorem inert_validId {id : String} (h : validId id = true) : Inert id.toList := by
  simp only [validId, Bool.and_eq_true, List.all_eq_true, Bool.or_eq_true, decide_eq_true_eq] at h
  have hrange : ∀ b ∈ utf8 id, 0x20 ≤ b.toNat ∧ b.toNat ≤ 0x7E := by
    intro b hb
    have hdigit := h.2 b hb
    simp [UInt8.le_iff_toNat_le] at hdigit
    omega
  refine inert_of_isPlain fun character hmem => ?_
  have hascii : ∀ b ∈ utf8 id, b < 0x80 := fun b hb =>
    UInt8.lt_iff_toNat_lt.mpr (Nat.lt_of_le_of_lt (hrange b hb).2 (by decide))
  obtain ⟨b, hb, heq⟩ := mem_toList_of_ascii hascii hmem
  obtain ⟨hlow, hhigh⟩ := hrange b hb
  rw [← heq] at hlow hhigh
  have hlow : ' ' ≤ character := UInt32.le_iff_toNat_le.mpr hlow
  have hhigh : character ≤ '~' := UInt32.le_iff_toNat_le.mpr hhigh
  simp [isPlain, hlow, hhigh]

theorem inert_statusText (status : SessionStatus) : Inert (statusText status).toList := by
  cases status <;> exact inert_plain (by decide)

/-- What is shown of a session whose id is one. -/
theorem renderSession_inert {shown : ShowResult} (h : validId shown.projection.sessionId = true) :
    Inert (renderSession shown).toList := by
  obtain ⟨⟨sessionId, createdAtUnixMs, prompt, status, terminal⟩, trailingFragment⟩ := shown
  have hid : Inert sessionId.toList := inert_validId h
  have hstatus := inert_statusText status
  have hprompt := renderModelText_inert prompt
  have hsession : Inert "Session: ".toList := inert_plain (by decide)
  have hline : Inert "\nStatus: ".toList := inert_plain (by decide)
  have huser : Inert "\nProvider: openai-codex\n\nUser:\n".toList := inert_plain (by decide)
  have hassistant : Inert "\nAssistant:\n".toList := inert_plain (by decide)
  have hfailure : Inert "\nFailure: ".toList := inert_plain (by decide)
  cases terminal with
  | none =>
    simp only [renderSession, String.toList_append, inert_append]
    exact ⟨⟨⟨⟨⟨hsession, hid⟩, hline⟩, hstatus⟩, huser⟩, hprompt⟩
  | some terminal =>
    cases terminal with
    | assistant answer =>
      simp only [renderSession, String.toList_append, inert_append]
      exact ⟨⟨⟨⟨⟨⟨⟨hsession, hid⟩, hline⟩, hstatus⟩, huser⟩, hprompt⟩, hassistant⟩, renderModelText_inert answer⟩
    | failure failure =>
      simp only [renderSession, String.toList_append, inert_append]
      exact ⟨⟨⟨⟨⟨⟨⟨hsession, hid⟩, hline⟩, hstatus⟩, huser⟩, hprompt⟩, hfailure⟩, renderModelText_inert _⟩

/-- **What the terminal is sent is inert**, ends its line, takes no more bytes
than are reserved for it and is what it is rendered as; so all that is shown
of a session that can be read is inert. -/
theorem terminal_inert :
    (∀ text : String, Inert (renderModelText text).toList ∧
      (renderModelText text).toList.getLast? = some '\n' ∧
      (renderModelText text).utf8ByteSize ≤ 6 * text.utf8ByteSize + 1 ∧
      (∀ usizeMax capacity, renderCapacity usizeMax text = some capacity →
        (renderModelText text).utf8ByteSize ≤ capacity) ∧
      renderModelText (renderModelText text) = renderModelText text) ∧
    ∀ (bytes : Bytes) (id : String) (shown : ShowResult), project bytes id = .ok shown →
      Inert (renderSession shown).toList := by
  constructor
  · intro text
    exact ⟨renderModelText_inert text, renderModelText_getLast? text, renderModelText_size text,
      fun _ _ h => renderModelText_fits h, renderModelText_idempotent text⟩
  · intro bytes id shown h
    obtain ⟨hid, hvalid⟩ := project_id h
    exact renderSession_inert (hid ▸ hvalid)

end AgentHarness.Cli
