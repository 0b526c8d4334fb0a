/-
A response that is completed within its limit, and reads that bring more
with the end of it: the limit is on the bytes that were read, so what
shares the last read counts as well (`decode_completed`).
-/
import AgentHarness.Sse.Prefix

namespace AgentHarness.Sse

open Text Except

/-- How many bytes have been read once the first `n` of them are there. -/
def receivedWith : List Bytes → Nat → Nat
  | [], _ => 0
  | _, 0 => 0
  | read :: reads, n => read.length + receivedWith reads (n - read.length)

theorem receivedWith_zero (reads : List Bytes) : receivedWith reads 0 = 0 := by
  cases reads <;> rfl

theorem receivedWith_succ (read : Bytes) (reads : List Bytes) (n : Nat) :
    receivedWith (read :: reads) (n + 1) = read.length + receivedWith reads (n + 1 - read.length) := rfl

/-- One byte a read brings no more than is asked for. -/
theorem receivedWith_bytewise_le (stream : Bytes) (n : Nat) : receivedWith (Delivery.bytewise stream).reads n ≤ n := by
  induction stream generalizing n with
  | nil => exact Nat.zero_le n
  | cons byte stream ih =>
    cases n with
    | zero => exact Nat.le_refl 0
    | succ n =>
      have hrest := ih n
      show [byte].length + receivedWith (Delivery.bytewise stream).reads (n + 1 - [byte].length) ≤ n + 1
      rw [List.length_singleton, Nat.add_sub_cancel]
      omega

section
variable {fromStr : String → Option Json} {limits : Limits} {d d' d₀ : Decoder} {text : String} {front : Bytes}
  {byte : UInt8} {stream : Bytes}

/-- The reads up to the one that brings the byte the answer comes with. -/
theorem receive_completed {reads : List Bytes} {responseBytes : Nat}
    (hfront : feed fromStr limits front d = .ok (none, d₀))
    (hwhole : feed fromStr limits (front ++ [byte]) d = .ok (some text, d'))
    (hpre : front ++ [byte] <+: reads.flatten)
    (hfits : responseBytes + (front.length + 1) ≤ limits.responseBytes.toNat) :
    receive fromStr limits reads responseBytes d =
      if responseBytes + receivedWith reads (front.length + 1) ≤ limits.responseBytes.toNat then .ok text
      else .error .limitExceeded := by
  induction reads generalizing responseBytes d front with
  | nil => exact absurd (List.prefix_nil.mp hpre) (by simp)
  | cons read reads ih =>
    rw [List.flatten_cons] at hpre
    rw [receivedWith_succ]
    unfold receive
    rw [within_checkedAdd]
    by_cases hlast : front.length + 1 ≤ read.length
    · -- The answer is in this read.
      have hread : front ++ [byte] <+: read := by
        refine List.prefix_of_prefix_length_le hpre (List.prefix_append read _) ?_
        simpa using hlast
      obtain ⟨more, rfl⟩ := hread
      have hrest : front.length + 1 - (front ++ [byte] ++ more).length = 0 := by omega
      rw [hrest, receivedWith_zero, Nat.add_zero, feed_sticky hwhole]
      split <;> rfl
    · -- It is not, and the read is within the limit.
      have hread : read <+: front := by
        refine List.prefix_of_prefix_length_le (List.prefix_append read reads.flatten) ?_ (by omega)
        exact (List.prefix_append front [byte]).trans hpre
      obtain ⟨front', rfl⟩ := hread
      have hchunk : responseBytes + read.length ≤ limits.responseBytes.toNat := by
        rw [List.length_append] at hfits
        omega
      obtain ⟨d₁, hd₁⟩ := feed_unfinished hfront
      rw [feed_append, hd₁, ok_bind] at hfront
      rw [List.append_assoc, feed_append, hd₁, ok_bind] at hwhole
      rw [List.append_assoc, List.prefix_append_right_inj] at hpre
      have hlength : (read ++ front').length + 1 - read.length = front'.length + 1 := by
        rw [List.length_append]
        omega
      have hrest : responseBytes + read.length + (front'.length + 1) ≤ limits.responseBytes.toNat := by
        rw [List.length_append] at hfits
        omega
      have hreceived := ih hfront hwhole hpre hrest
      rw [if_pos hchunk, ok_bind, hd₁, ok_bind, hlength, ← Nat.add_assoc]
      exact hreceived

/-- **A response that is completed within the limit is accepted exactly when
the read it is completed in ends within the limit**, and is otherwise too
large. Nothing after it matters but for that. -/
theorem decode_completed {clock : Nat → Nat} (htime : ∀ n, clock n < limits.totalBudget)
    (delivery : Delivery (stream.take limits.responseBytes.toNat))
    (hdecode : decode fromStr limits clock delivery.results = .ok text) :
    ∃ P, P <+: stream ∧ P.length ≤ limits.responseBytes.toNat ∧ EndsResponse fromStr limits P ∧
      ∀ (clock' : Nat → Nat) (delivery' : Delivery stream), (∀ n, clock' n < limits.totalBudget) →
        decode fromStr limits clock' delivery'.results =
          if receivedWith delivery'.reads P.length ≤ limits.responseBytes.toNat then .ok text
          else .error .limitExceeded := by
  have hlen : (stream.take limits.responseBytes.toNat).length ≤ limits.responseBytes.toNat :=
    List.length_take_le _ _
  rw [delivery.decode_eq htime hlen] at hdecode
  obtain ⟨⟨x, d⟩, hfeed, hfinish⟩ := bind_ok_iff.mp hdecode
  obtain rfl : x = some text := okOr_ok_iff.mp hfinish
  obtain ⟨front, d₀, hpre, hends, hfront, hwhole⟩ := feed_endsResponse hfeed
  have hstream : front ++ [lf] <+: stream := hpre.trans (List.take_prefix _ _)
  have hfits : front.length + 1 ≤ limits.responseBytes.toNat := by
    have hshort := hpre.length_le.trans hlen
    simpa using hshort
  refine ⟨front ++ [lf], hstream, by simpa using hfits, hends, ?_⟩
  intro clock' delivery' htime'
  rw [delivery'.decode_results htime', List.length_append, List.length_singleton]
  rw [← delivery'.whole] at hstream
  have hnone : 0 + (front.length + 1) ≤ limits.responseBytes.toNat := by omega
  have hreceived := receive_completed hfront hwhole hstream hnone
  rw [Nat.zero_add] at hreceived
  exact hreceived

end

/-- Limits that leave room for the sample stream and nothing more. -/
def sampleLimits : Limits := { Limits.production with responseBytes := UInt64.ofNat sampleStream.length }

/-- A stream of just what the limit allows is decoded, with one more byte after it too. -/
theorem decode_completed_sample :
    decode serdeFromStr sampleLimits (fun _ => 0) (Delivery.bytewise (sampleStream ++ [lf])).results = .ok "é" := by
  have hdecode : decode serdeFromStr sampleLimits (fun _ => 0)
      (Delivery.bytewise ((sampleStream ++ [lf]).take sampleLimits.responseBytes.toNat)).results = .ok "é" := by
    decide +kernel
  have htime : ∀ n, (fun _ : Nat => 0) n < sampleLimits.totalBudget := sample_inTime
  obtain ⟨P, -, hlen, -, h⟩ := decode_completed htime _ hdecode
  rw [h _ _ htime, if_pos ((receivedWith_bytewise_le _ _).trans hlen)]

/-- Together with the end of the response, that byte is one too many. -/
theorem decode_completed_late :
    decode serdeFromStr sampleLimits (fun _ => 0)
        (Delivery.bytewise ((sampleStream ++ [lf]).take sampleLimits.responseBytes.toNat)).results = .ok "é" ∧
      decode serdeFromStr sampleLimits (fun _ => 0)
        (Delivery.atOnce (sampleStream ++ [lf]) (by simp) (by decide +kernel)).results = .error .limitExceeded :=
  ⟨by decide +kernel, by decide +kernel⟩

end AgentHarness.Sse
