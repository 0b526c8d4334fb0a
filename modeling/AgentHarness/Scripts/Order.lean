/-
The order of a pack's rules. A content whose last line has its end is some
first lines and its rules; with these in any other order it is accepted and
has the same lock, and its canonical form is the one with them in the order
of their names (`validatePackContent_perm`).
-/
import Mathlib.Data.List.Perm.Basic
import AgentHarness.Scripts.Lock

namespace AgentHarness.Scripts

open Text Except LineEnds

/-- The last line of the content has its end. -/
def EndsLine (content : Bytes) : Prop := content.getLast? = some lf ∨ content.getLast? = some cr

/-- Blank lines and rules that can be told one from the other, in any order. -/
structure Arranged (blanks : List Bytes) (rules : List Rule) : Prop where
  header : Cut (rulesHeader :: blanks)
  whole : ∀ line ∈ blanks, Whole line
  blank : ∀ line ∈ blanks, ¬ruleMarker <+: line ∧ strip line = []
  cut : ∀ r ∈ rules, Cut r.lines
  ended : ∀ r ∈ rules, r.Ended
  distinct : (rules.map Rule.id).Nodup
  nonempty : rules ≠ []

/-- The content that has these. -/
def arrange (blanks : List Bytes) (rules : List Rule) : Bytes :=
  (rulesHeader :: blanks).flatten ++ ((rules.map Rule.block).map (·.2)).flatten

section
variable {packId : String} {content : Bytes} {blanks : List Bytes} {rules rules' : List Rule}

theorem arrange_eq (blanks : List Bytes) (rules : List Rule) :
    arrange blanks rules = (rulesHeader :: (blanks ++ rules.flatMap Rule.lines)).flatten := by
  have hblocks : ((rules.map Rule.block).map (·.2)).flatten = (rules.flatMap Rule.lines).flatten := by
    rw [List.map_map, List.flatMap, List.flatten_flatten, List.map_map]
    rfl
  rw [arrange, hblocks, ← List.flatten_append, List.cons_append]

/-! ## Rules in the order of their names -/

theorem sortedRules_eq (hperm : rules'.Perm rules) (h : (rules.map Rule.id).Nodup) :
    sortedRules rules' = sortedRules rules := by
  have h' : (rules'.map Rule.id).Nodup := (hperm.map Rule.id).nodup_iff.mpr h
  have hsame : (sortedRules rules').Perm (sortedRules rules) :=
    ((sortedRules_perm rules').trans hperm).trans (sortedRules_perm rules).symm
  refine hsame.eq_of_pairwise ?_ (sortedRules_sorted h') (sortedRules_sorted h)
  intro a b _ _ hab hba
  exact absurd hba (List.lt_asymm hab)

theorem sortedBlocks_block (rules : List Rule) :
    sortedBlocks (rules.map Rule.block) = (sortedRules rules).map Rule.block := by
  rw [sortedBlocks, sortedRules, List.map_mergeSort]
  intro a _ b _
  rfl

/-- Blocks in another order are those of the rules in another order. -/
theorem exists_rules_of_perm {blocks : List (Bytes × Bytes)} (h : blocks.Perm (rules.map Rule.block)) :
    ∃ rules' : List Rule, blocks = rules'.map Rule.block ∧ rules'.Perm rules := by
  have hblocks : List.Forall₂ (fun block r => block = Rule.block r) (rules.map Rule.block) rules := by
    rw [← List.forall₂_map_right_iff, List.forall₂_eq_eq_eq]
  obtain ⟨rules', hmap, hperm⟩ := List.perm_comp_forall₂ h hblocks
  rw [← List.forall₂_map_right_iff, List.forall₂_eq_eq_eq] at hmap
  exact ⟨rules', hmap, hperm⟩

namespace Arranged

theorem perm (h : Arranged blanks rules) (hperm : rules'.Perm rules) : Arranged blanks rules' where
  header := h.header
  whole := h.whole
  blank := h.blank
  cut r hr := h.cut r (hperm.subset hr)
  ended r hr := h.ended r (hperm.subset hr)
  distinct := (hperm.map Rule.id).nodup_iff.mpr h.distinct
  nonempty hnil := h.nonempty (List.perm_nil.mp (hnil ▸ hperm.symm))

/-- Without the blank lines. -/
theorem bare (h : Arranged blanks rules) : Arranged [] rules where
  header := by
    have hheader : Cut ([rulesHeader] ++ blanks) := h.header
    exact hheader.left
  whole := by simp
  blank := by simp
  cut := h.cut
  ended := h.ended
  distinct := h.distinct
  nonempty := h.nonempty

/-- The lines are told apart again. -/
theorem splitLines_arrange (h : Arranged blanks rules) :
    splitLines (arrange blanks rules) = rulesHeader :: (blanks ++ rules.flatMap Rule.lines) := by
  have hrules : Cut (rules.flatMap Rule.lines) :=
    cut_flatMap h.cut fun r hr => h.ended r (List.dropLast_subset _ hr)
  have hwhole : ∀ line ∈ rulesHeader :: blanks, Whole line := by
    intro line hline
    rcases List.mem_cons.mp hline with rfl | hline
    · exact whole_rulesHeader
    · exact h.whole line hline
  rw [arrange_eq, ← List.cons_append, splitLines_flatten (h.header.append hwhole hrules (flatMap_lines_head? rules))]

theorem parse (h : Arranged blanks rules) (packId : String) :
    parseRuleBlocks packId (arrange blanks rules) = .ok (rules.map Rule.block) :=
  parseRuleBlocks_lines packId h.splitLines_arrange h.blank h.nonempty

theorem validate (h : Arranged blanks rules) (packId : String) (hsize : (arrange blanks rules).length ≤ maxPackBytes) :
    validatePackContent packId (arrange blanks rules) =
      .ok (Sha256.hexdigest (rulesHeader ++ ((sortedRules rules).flatMap Rule.lines).flatten),
        (arrange blanks rules).length, rules.length) := by
  have hheader : rulesHeader.isPrefixOf (arrange blanks rules) = true := by
    rw [List.isPrefixOf_iff_prefix, arrange_eq, List.flatten_cons]
    exact List.prefix_append _ _
  have hids : ((rules.map Rule.block).map (·.1)).Nodup := by
    have hsame : (rules.map Rule.block).map (·.1) = rules.map Rule.id := by
      rw [List.map_map]
      rfl
    rw [hsame]
    exact h.distinct
  rw [validatePackContent_parsed hheader hsize (h.parse packId) hids, canonicalForm_block, List.length_map]

theorem length_arrange (hperm : rules'.Perm rules) :
    (arrange blanks rules').length = (arrange blanks rules).length := by
  rw [arrange, arrange, List.length_append, List.length_append,
    ((hperm.map Rule.block).map (·.2)).flatten.length_eq]

/-- The canonical form has the rules in the order of their names. -/
theorem parse_canonicalForm (h : Arranged blanks rules) (packId : String) :
    parseRuleBlocks packId (canonicalForm (rules.map Rule.block)) = .ok (sortedBlocks (rules.map Rule.block)) := by
  have hform : canonicalForm (rules.map Rule.block) = arrange [] (sortedRules rules) := by
    rw [arrange, canonicalForm, sortedBlocks_block]
    simp
  rw [hform, (h.bare.perm (sortedRules_perm rules)).parse, sortedBlocks_block]

end Arranged

/-- An accepted content whose last line has its end. -/
theorem exists_arranged {result : String × Nat × Nat} (h : validatePackContent packId content = .ok result)
    (hends : EndsLine content) :
    ∃ blanks rules, Arranged blanks rules ∧ content = arrange blanks rules ∧ content.length ≤ maxPackBytes := by
  obtain ⟨blanks, rules, hlines, hblanks, hne, hdistinct, -, hsize, -⟩ := validatePackContent_rules h
  have hreads : Reads content rules := ⟨⟨blanks, hlines, fun line hline => (hblanks line hline).1⟩, hdistinct⟩
  have hcut := cut_splitLines content
  rw [hlines, ← List.cons_append] at hcut
  have hended : ∀ r ∈ rules, r.Ended := by
    rw [← List.dropLast_concat_getLast hne] at hreads
    intro r hr
    rw [← List.dropLast_concat_getLast hne] at hr
    rcases List.mem_append.mp hr with hr | hr
    · exact hreads.ended hr
    · rw [List.mem_singleton.mp hr]
      exact hreads.ended_iff.mpr hends
  have hlast : rules.flatMap Rule.lines ≠ [] := by
    obtain ⟨r, rules, rfl⟩ := List.exists_cons_of_ne_nil hne
    exact List.cons_ne_nil _ _
  refine ⟨blanks, rules, ?_, ?_, hsize⟩
  · exact ⟨hcut.left, fun line hline => hcut.whole hlast (List.mem_cons_of_mem _ hline), hblanks,
      fun r hr => hreads.cut_lines hr, hended, hdistinct, hne⟩
  · rw [arrange_eq, ← hlines, flatten_splitLines]

/-- **The lock does not depend on the order of the rules.** -/
theorem validatePackContent_perm {result : String × Nat × Nat} (h : validatePackContent packId content = .ok result)
    (hends : EndsLine content) :
    ∃ first blocks, parseRuleBlocks packId content = .ok blocks ∧ content = first ++ (blocks.map (·.2)).flatten ∧
      (∀ blocks', blocks'.Perm blocks →
        validatePackContent packId (first ++ (blocks'.map (·.2)).flatten) = .ok result ∧
        parseRuleBlocks packId (first ++ (blocks'.map (·.2)).flatten) = .ok blocks') ∧
      parseRuleBlocks packId (canonicalForm blocks) = .ok (sortedBlocks blocks) := by
  obtain ⟨blanks, rules, harranged, rfl, hsize⟩ := exists_arranged h hends
  refine ⟨(rulesHeader :: blanks).flatten, rules.map Rule.block, harranged.parse packId, rfl, ?_,
    harranged.parse_canonicalForm packId⟩
  intro blocks' hperm
  obtain ⟨rules', rfl, hrules⟩ := exists_rules_of_perm hperm
  have harranged' := harranged.perm hrules
  have hlength : (arrange blanks rules').length = (arrange blanks rules).length := Arranged.length_arrange hrules
  have hvalid := harranged'.validate packId (by rw [hlength]; exact hsize)
  rw [sortedRules_eq hrules harranged.distinct, hlength, hrules.length_eq, ← harranged.validate packId hsize, h] at hvalid
  exact ⟨hvalid, harranged'.parse packId⟩

theorem validatePackContent_perm_swapped :
    ∃ result, validatePackContent "p/default" rulesBA = .ok result ∧ validatePackContent "p/default" rulesAB = .ok result := by
  have hba : parseRuleBlocks "p/default" rulesBA = .ok [(utf8 "b", utf8 "- id: b\n"), (utf8 "a", utf8 "- id: a\n")] := by
    decide +kernel
  have hvalid := validatePackContent_parsed (by decide +kernel) (by decide +kernel) hba (by decide +kernel)
  obtain ⟨first, blocks, hblocks, hfirst, hperm, -⟩ := validatePackContent_perm hvalid (.inl (by decide +kernel))
  cases hba.symm.trans hblocks
  have hcontent : rulesBA = rulesHeader ++ (utf8 "- id: b\n" ++ utf8 "- id: a\n") := by decide +kernel
  have hheader : first = rulesHeader := by
    rw [hcontent] at hfirst
    simpa using hfirst.symm
  have hswap := (hperm [(utf8 "a", utf8 "- id: a\n"), (utf8 "b", utf8 "- id: b\n")] (List.Perm.swap _ _ _)).1
  have hab : first ++ ([(utf8 "a", utf8 "- id: a\n"), (utf8 "b", utf8 "- id: b\n")].map (·.2)).flatten = rulesAB := by
    rw [hheader]
    decide +kernel
  rw [hab] at hswap
  exact ⟨_, hvalid, hswap⟩

end

end AgentHarness.Scripts
