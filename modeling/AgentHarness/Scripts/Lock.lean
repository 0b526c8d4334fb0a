/-
What the lock of a pack says of its rules. The rules of a content whose lines
all have their ends can be read off its canonical form, and so can they when
the one without comes last by its name. Any other runs into the rule after it
there, and the canonical form is that of other rules too (`lock_tells_rules`).
-/
import Mathlib.Data.List.Dedup
import AgentHarness.Scripts.Rules

namespace AgentHarness.Scripts

open Text Except LineEnds

/-! ## The rules of a content -/

/-- The content is the header, lines that belong to no rule, and the rules. -/
structure Reads (content : Bytes) (rules : List Rule) : Prop where
  lines : ∃ blanks, splitLines content = rulesHeader :: (blanks ++ rules.flatMap Rule.lines) ∧
    ∀ line ∈ blanks, ¬ruleMarker <+: line
  distinct : (rules.map Rule.id).Nodup

section
variable {packId : String} {content : Bytes} {rules : List Rule} {r u : Rule}

theorem splitLines_header {rest : Bytes} : splitLines (rulesHeader ++ rest) = rulesHeader :: splitLines rest := by
  refine splitLines_cons whole_rulesHeader fun hcr => ?_
  rw [rulesHeader_eq] at hcr
  cases hcr

theorem exists_parsed {result : String × Nat × Nat} (h : validatePackContent packId content = .ok result) :
    ∃ blocks, parseRuleBlocks packId content = .ok blocks := by
  obtain ⟨_, -, h⟩ := bind_ok_iff.mp h
  obtain ⟨_, -, h⟩ := bind_ok_iff.mp h
  obtain ⟨blocks, hblocks, -⟩ := bind_ok_iff.mp h
  exact ⟨blocks, hblocks⟩

theorem validatePackContent_parsed {blocks : List (Bytes × Bytes)} (hheader : rulesHeader.isPrefixOf content = true)
    (hsize : content.length ≤ maxPackBytes) (hblocks : parseRuleBlocks packId content = .ok blocks)
    (hdistinct : (blocks.map (·.1)).Nodup) :
    validatePackContent packId content = .ok (Sha256.hexdigest (canonicalForm blocks), content.length, blocks.length) := by
  have hlong : ¬content.length > maxPackBytes := by omega
  simp [validatePackContent, hheader, hlong, hblocks, List.dedup_eq_self.mpr hdistinct]

/-- What is accepted is some blank lines and rules with names of their own. -/
theorem validatePackContent_rules {result : String × Nat × Nat} (h : validatePackContent packId content = .ok result) :
    ∃ (blanks : List Bytes) (rules : List Rule),
      splitLines content = rulesHeader :: (blanks ++ rules.flatMap Rule.lines) ∧
      (∀ line ∈ blanks, ¬ruleMarker <+: line ∧ strip line = []) ∧ rules ≠ [] ∧ (rules.map Rule.id).Nodup ∧
      parseRuleBlocks packId content = .ok (rules.map Rule.block) ∧ content.length ≤ maxPackBytes ∧
      result = (Sha256.hexdigest (canonicalForm (rules.map Rule.block)), content.length, (rules.map Rule.block).length) := by
  obtain ⟨_, hheader, h⟩ := bind_ok_iff.mp h
  obtain ⟨_, hsize, h⟩ := bind_ok_iff.mp h
  obtain ⟨blocks, hblocks, h⟩ := bind_ok_iff.mp h
  obtain ⟨_, hdistinct, h⟩ := bind_ok_iff.mp h
  cases h
  obtain ⟨rest, rfl⟩ : rulesHeader <+: content := by simpa using hheader
  obtain ⟨blanks, rules, htail, hblanks, hne, rfl⟩ := parseRuleBlocks_ok hblocks
  rw [splitLines_header, List.tail_cons] at htail
  refine ⟨blanks, rules, by rw [splitLines_header, htail], hblanks, hne, ?_, hblocks, by simpa using hsize, rfl⟩
  have hids : ((rules.map Rule.block).map (·.1)) = rules.map Rule.id := by
    rw [List.map_map]
    rfl
  rw [hids] at hdistinct
  have hlength : (rules.map Rule.id).dedup.length = (rules.map Rule.id).length := by simpa using hdistinct
  exact List.dedup_eq_self.mp ((List.dedup_sublist _).eq_of_length hlength)

/-- What is accepted is read as rules, and locked by them. -/
theorem validatePackContent_ok {result : String × Nat × Nat} {blocks : List (Bytes × Bytes)}
    (h : validatePackContent packId content = .ok result) (hblocks : parseRuleBlocks packId content = .ok blocks) :
    ∃ front last, Reads content (front ++ [last]) ∧ blocks = (front ++ [last]).map Rule.block ∧
      result = (Sha256.hexdigest (canonicalForm blocks), content.length, blocks.length) := by
  obtain ⟨blanks, rules, hlines, hblanks, hne, hdistinct, hparsed, -, rfl⟩ := validatePackContent_rules h
  cases hparsed.symm.trans hblocks
  refine ⟨rules.dropLast, rules.getLast hne, ?_⟩
  rw [List.dropLast_concat_getLast hne]
  exact ⟨⟨⟨blanks, hlines, fun line hline => (hblanks line hline).1⟩, hdistinct⟩, rfl, rfl⟩

namespace Reads

theorem cut (h : Reads content rules) : Cut (rules.flatMap Rule.lines) := by
  obtain ⟨blanks, hlines, -⟩ := h.lines
  have hcut := cut_splitLines content
  rw [hlines, ← List.cons_append] at hcut
  exact hcut.right

theorem cut_lines (h : Reads content rules) (hr : r ∈ rules) : Cut r.lines := by
  obtain ⟨before, after, rfl⟩ := List.append_of_mem hr
  have hcut := h.cut
  rw [List.flatMap_append, List.flatMap_cons] at hcut
  exact hcut.right.left

/-- Only the last rule may have a line without its end. -/
theorem ended {front : List Rule} {last : Rule} (h : Reads content (front ++ [last])) (hr : r ∈ front) : r.Ended := by
  intro line hline
  have hcut := h.cut
  rw [List.flatMap_append, List.flatMap_singleton] at hcut
  exact hcut.whole (List.cons_ne_nil _ _) (List.mem_flatMap.mpr ⟨r, hr, hline⟩)

end Reads

theorem Rule.exists_concat (r : Rule) : ∃ front tail, r.lines = front ++ [tail] :=
  ⟨_, _, (List.dropLast_concat_getLast (List.cons_ne_nil _ _)).symm⟩

/-- Which of its lines have their ends, as only the last may have none. -/
theorem Rule.ended_or (hcut : Cut r.lines) :
    r.Ended ∨ ∃ front tail, r.lines = front ++ [tail] ∧ tail ≠ [] ∧ Plain tail ∧ ∀ line ∈ front, Whole line := by
  obtain ⟨front, tail, hlines⟩ := r.exists_concat
  rw [hlines] at hcut
  have hfront : ∀ line ∈ front, Whole line := fun line hline => hcut.whole (List.cons_ne_nil _ _) hline
  rcases hcut.whole_or_plain (List.mem_append_right _ (List.mem_singleton_self tail)) with hwhole | ⟨htail, hplain⟩
  · refine .inl fun line hline => ?_
    rw [hlines] at hline
    rcases List.mem_append.mp hline with hline | hline
    · exact hfront line hline
    · rw [List.mem_singleton.mp hline]
      exact hwhole
  · exact .inr ⟨front, tail, hlines, htail, hplain, hfront⟩

/-! ## The order of the names -/

def sortedRules (rules : List Rule) : List Rule := rules.mergeSort fun a b => decide (a.id ≤ b.id)

theorem sortedRules_perm (rules : List Rule) : (sortedRules rules).Perm rules := List.mergeSort_perm _ _

theorem sortedRules_sorted (h : (rules.map Rule.id).Nodup) : (sortedRules rules).Pairwise fun a b => a.id < b.id := by
  have htrans : ∀ a b c : Rule, decide (a.id ≤ b.id) = true → decide (b.id ≤ c.id) = true →
      decide (a.id ≤ c.id) = true := by
    intro a b c hab hbc
    exact decide_eq_true (List.le_trans (of_decide_eq_true hab) (of_decide_eq_true hbc))
  have htotal : ∀ a b : Rule, (decide (a.id ≤ b.id) || decide (b.id ≤ a.id)) = true := by
    intro a b
    simpa using List.le_total a.id b.id
  have hle := List.pairwise_mergeSort htrans htotal rules
  have hne : (sortedRules rules).Pairwise fun a b => a.id ≠ b.id := by
    have hsame : ((sortedRules rules).map Rule.id).Nodup := (((sortedRules_perm rules).map Rule.id).nodup_iff).mpr h
    exact List.pairwise_map.mp hsame
  refine (hle.and hne).imp fun {a b} hab => ?_
  refine List.not_le.mp fun hba => hab.2 ?_
  exact List.le_antisymm (of_decide_eq_true hab.1) hba

theorem mem_sortedRules : r ∈ sortedRules rules ↔ r ∈ rules := (sortedRules_perm rules).mem_iff

/-- What comes before a rule, and what after it. -/
theorem sortedRules_split {before after : List Rule} (h : (rules.map Rule.id).Nodup)
    (hsorted : sortedRules rules = before ++ u :: after) : (∀ r ∈ before, r.id < u.id) ∧ ∀ r ∈ after, u.id < r.id := by
  have hlt := sortedRules_sorted h
  rw [hsorted] at hlt
  obtain ⟨-, hafter, hbefore⟩ := List.pairwise_append.mp hlt
  exact ⟨fun r hr => hbefore r hr u List.mem_cons_self, fun r hr => List.rel_of_pairwise_cons hafter hr⟩

theorem canonicalForm_block (rules : List Rule) :
    canonicalForm (rules.map Rule.block) = rulesHeader ++ ((sortedRules rules).flatMap Rule.lines).flatten := by
  have hsorted : sortedBlocks (rules.map Rule.block) = (sortedRules rules).map Rule.block := by
    rw [sortedBlocks, sortedRules, List.map_mergeSort]
    intro a _ b _
    rfl
  rw [canonicalForm, hsorted, List.map_map, List.flatMap, List.flatten_flatten, List.map_map]
  rfl

/-! ## Reading the canonical form -/

/-- A rule is told by its bytes, where these are cut into its lines. -/
theorem Rule.bytes_inj {r r' : Rule} (hr : Cut r.lines) (hr' : Cut r'.lines) (h : r.bytes = r'.bytes) : r = r' := by
  have hlines : r.lines = r'.lines := by
    rw [← splitLines_flatten hr, ← splitLines_flatten hr']
    exact congrArg splitLines h
  obtain ⟨hfirst, hrest⟩ := List.cons.inj hlines
  exact Rule.ext hfirst hrest

theorem Reads.ended_of_sorted {front before after : List Rule} {last : Rule} (h : Reads content (front ++ [last]))
    (hsorted : sortedRules (front ++ [last]) = before ++ last :: after) : ∀ r ∈ before ++ after, r.Ended := by
  have hperm := sortedRules_perm (front ++ [last])
  rw [hsorted] at hperm
  have hfront : (before ++ after).Perm front := by
    refine List.Perm.cons_inv (a := last) ?_
    exact (List.perm_middle.symm.trans hperm).trans (List.perm_append_singleton last front)
  exact fun r hr => h.ended (hfront.subset hr)

/-- Rules of which only the one that comes last may not have its end. -/
theorem Reads.cut_sorted {front : List Rule} (h : Reads content (front ++ [u]))
    (hclosed : u.Ended ∨ ∀ r ∈ front, ¬u.id < r.id) : Cut ((sortedRules (front ++ [u])).flatMap Rule.lines) := by
  refine cut_flatMap (fun r hr => h.cut_lines (mem_sortedRules.mp hr)) fun r hr => ?_
  obtain ⟨before, after, hsorted⟩ :=
    List.append_of_mem (mem_sortedRules.mpr (List.mem_append_right front (List.mem_singleton_self u)))
  have hothers := h.ended_of_sorted hsorted
  rw [hsorted] at hr
  rcases hclosed with hu | hmax
  · rcases List.mem_append.mp (List.dropLast_subset _ hr) with hr | hr
    · exact hothers r (List.mem_append_left _ hr)
    · rcases List.mem_cons.mp hr with rfl | hr
      · exact hu
      · exact hothers r (List.mem_append_right _ hr)
  · have hafter : after = [] := by
      refine List.eq_nil_iff_forall_not_mem.mpr fun r' hr' => ?_
      have hless : u.id < r'.id := (sortedRules_split h.distinct hsorted).2 r' hr'
      have hmem : r' ∈ front ++ [u] := by
        rw [← mem_sortedRules, hsorted]
        exact List.mem_append_right _ (List.mem_cons_of_mem _ hr')
      rcases List.mem_append.mp hmem with hmem | hmem
      · exact hmax r' hmem hless
      · rw [List.mem_singleton.mp hmem] at hless
        exact List.lt_irrefl _ hless
    rw [hafter, List.dropLast_concat] at hr
    exact hothers r (List.mem_append_left _ hr)

/-- The rule `u` runs into the one after it. -/
structure Run (rules : List Rule) (u : Rule) where
  before : List Rule
  next : Rule
  after : List Rule
  sorted : sortedRules rules = before ++ u :: next :: after
  front : List Bytes
  tail : Bytes
  lines : u.lines = front ++ [tail]
  /-- What the two are read as. -/
  joined : Rule
  joined_lines : joined.lines = front ++ (tail ++ next.first) :: next.rest
  joined_id : u.id ≤ joined.id

namespace Run
variable {rules' : List Rule}

/-- The rules that are read. -/
def read (run : Run rules u) : List Rule := run.before ++ run.joined :: run.after

theorem length_read (run : Run rules u) : run.read.length + 1 = rules.length := by
  rw [← (sortedRules_perm rules).length_eq, run.sorted, read]
  simp
  omega

theorem flatten_read (run : Run rules u) :
    (run.read.flatMap Rule.lines).flatten = ((sortedRules rules).flatMap Rule.lines).flatten := by
  have hnext : run.next.lines = run.next.first :: run.next.rest := rfl
  simp [run.sorted, read, run.joined_lines, run.lines, hnext]

theorem not_mem_before (run : Run rules u) (h : (rules.map Rule.id).Nodup) (hid : u.id ≤ r.id) : r ∉ run.before := by
  intro hr
  exact List.not_le.mpr ((sortedRules_split h run.sorted).1 r hr) hid

/-- What the rule runs into can be told once it is known. -/
theorem sorted_eq (run : Run rules u) (run' : Run rules' u) (h : (rules.map Rule.id).Nodup)
    (h' : (rules'.map Rule.id).Nodup) (hread : run.read = run'.read) : sortedRules rules = sortedRules rules' := by
  have hsplit : run.before = run'.before ∧ run.joined :: run.after = run'.joined :: run'.after := by
    rcases List.append_eq_append_iff.mp hread with ⟨between, hbefore, hjoined⟩ | ⟨between, hbefore, hjoined⟩
    · cases between with
      | nil => exact ⟨by simpa using hbefore.symm, hjoined⟩
      | cons r between =>
        obtain ⟨rfl, -⟩ := List.cons.inj hjoined
        exact absurd (by simp [hbefore]) (run'.not_mem_before h' run.joined_id)
    · cases between with
      | nil => exact ⟨by simpa using hbefore, hjoined.symm⟩
      | cons r between =>
        obtain ⟨rfl, -⟩ := List.cons.inj hjoined
        exact absurd (by simp [hbefore]) (run.not_mem_before h run'.joined_id)
  obtain ⟨hbefore, hrest⟩ := hsplit
  obtain ⟨hjoined, hafter⟩ := List.cons.inj hrest
  have hu : run.front ++ [run.tail] = run'.front ++ [run'.tail] := run.lines.symm.trans run'.lines
  obtain ⟨hfront, htail⟩ := List.append_inj' hu rfl
  have hlines : run.front ++ (run.tail ++ run.next.first) :: run.next.rest =
      run'.front ++ (run'.tail ++ run'.next.first) :: run'.next.rest := by
    rw [← run.joined_lines, ← run'.joined_lines, hjoined]
  rw [hfront, List.singleton_inj.mp htail] at hlines
  obtain ⟨hfirst, hnextRest⟩ := List.cons.inj (List.append_cancel_left hlines)
  have hnext : run.next = run'.next := Rule.ext (List.append_cancel_left hfirst) hnextRest
  rw [run.sorted, run'.sorted, hbefore, hnext, hafter]

end Run

/-- A rule that does not come last has a rule after it. -/
theorem Reads.exists_next {front : List Rule} (h : Reads content (front ++ [u])) (hless : ∃ r ∈ front, u.id < r.id) :
    ∃ before next after, sortedRules (front ++ [u]) = before ++ u :: next :: after := by
  obtain ⟨before, rest, hsorted⟩ :=
    List.append_of_mem (mem_sortedRules.mpr (List.mem_append_right front (List.mem_singleton_self u)))
  obtain ⟨next, after, rfl⟩ : ∃ next after, rest = next :: after := by
    refine List.exists_cons_of_ne_nil fun hnil => ?_
    obtain ⟨r, hr, hid⟩ := hless
    have hmem := mem_sortedRules.mpr (List.mem_append_left [u] hr)
    rw [hsorted, hnil] at hmem
    rcases List.mem_append.mp hmem with hmem | hmem
    · exact List.lt_asymm hid ((sortedRules_split h.distinct hsorted).1 r hmem)
    · rw [List.mem_singleton.mp hmem] at hid
      exact List.lt_irrefl _ hid
  exact ⟨before, next, after, hsorted⟩

section
variable {joined next : Rule} {first : List Bytes} {tail : Bytes}
  (hjoined : joined.lines = first ++ (tail ++ next.first) :: next.rest) (hfirst : ∀ line ∈ first, Whole line)
  (hplain : Plain tail) (hnext : next.Ended)
include hjoined hfirst hplain hnext

theorem ended_joined : joined.Ended := by
  intro line hline
  rw [hjoined] at hline
  rcases List.mem_append.mp hline with hline | hline
  · exact hfirst line hline
  · rcases List.mem_cons.mp hline with rfl | hline
    · exact (hnext next.first List.mem_cons_self).prepend hplain
    · exact hnext line (List.mem_cons_of_mem _ hline)

theorem cut_joined (hne : tail ≠ []) (hcutFirst : Cut first) (hcutNext : Cut next.lines) : Cut joined.lines := by
  have hrest : Cut ((tail ++ next.first) :: next.rest) :=
    Cut.prepend hcutNext (hnext next.first List.mem_cons_self) hplain
  rw [hjoined]
  refine hcutFirst.append hfirst hrest ?_
  obtain ⟨b, tail, rfl⟩ := List.exists_cons_of_ne_nil hne
  exact fun hhead => (hplain b List.mem_cons_self).1 (Option.some.inj hhead)

end

/-- A rule without its end runs into the next, unless it comes last. -/
theorem Reads.exists_run {front : List Rule} (h : Reads content (front ++ [u])) (hended : ¬u.Ended)
    (hless : ∃ r ∈ front, u.id < r.id) : ∃ run : Run (front ++ [u]) u, Cut (run.read.flatMap Rule.lines) := by
  obtain ⟨before, next, after, hsorted⟩ := h.exists_next hless
  have hothers := h.ended_of_sorted hsorted
  have hcut : ∀ r ∈ before ++ u :: next :: after, Cut r.lines := by
    intro r hr
    rw [← hsorted] at hr
    exact h.cut_lines (mem_sortedRules.mp hr)
  have hu : Cut u.lines := hcut u (by simp)
  rcases Rule.ended_or hu with hall | ⟨first, tail, hlines, hne, hplain, hfirst⟩
  · exact absurd hall hended
  obtain ⟨joined, hjoined, hid⟩ := exists_joined next hlines hne
  rw [hlines] at hu
  have hnext : next.Ended := hothers next (by simp)
  have hcutJoined := cut_joined hjoined hfirst hplain hnext hne hu.left (hcut next (by simp))
  have hread : ∀ r ∈ before ++ joined :: after, Cut r.lines ∧ r.Ended := by
    intro r hr
    rcases List.mem_append.mp hr with hr | hr
    · exact ⟨hcut r (by simp [hr]), hothers r (by simp [hr])⟩
    · rcases List.mem_cons.mp hr with rfl | hr
      · exact ⟨hcutJoined, ended_joined hjoined hfirst hplain hnext⟩
      · exact ⟨hcut r (by simp [hr]), hothers r (by simp [hr])⟩
  let run : Run (front ++ [u]) u :=
    { before, next, after, sorted := hsorted, front := first, tail, lines := hlines, joined, joined_lines := hjoined,
      joined_id := hid }
  exact ⟨run, cut_flatMap (fun r hr => (hread r hr).1) fun r hr => (hread r (List.dropLast_subset _ hr)).2⟩

/-! ## The last rule of a content -/

def ruleId (line : Bytes) : Bytes := strip (line.drop ruleMarker.length)

/-- The lines from the last on that names a rule. -/
def lastRule : List Bytes → List Bytes
  | [] => []
  | line :: lines => if lines.any ruleMarker.isPrefixOf then lastRule lines else line :: lines

/-- The last line of the content has no end, and its last rule does not come
last by its name. -/
def RunsTogether (content : Bytes) : Prop :=
  content.getLast? ≠ some lf ∧ content.getLast? ≠ some cr ∧
    ∃ line ∈ splitLines content, ruleMarker <+: line ∧ ruleId ((lastRule (splitLines content)).headD []) < ruleId line

theorem lastRule_lines (u : Rule) (lines : List Bytes) : lastRule (lines ++ u.lines) = u.lines := by
  induction lines with
  | nil =>
    have hrest : u.rest.any ruleMarker.isPrefixOf = false := by
      refine List.any_eq_false.mpr fun line hline hprefix => u.unmarked line hline (List.isPrefixOf_iff_prefix.mp hprefix)
    rw [List.nil_append, Rule.lines, lastRule, hrest, if_neg Bool.false_ne_true]
  | cons line lines ih =>
    have hmarked : (lines ++ u.lines).any ruleMarker.isPrefixOf = true := by
      refine List.any_eq_true.mpr ⟨u.first, ?_, List.isPrefixOf_iff_prefix.mpr u.marked⟩
      exact List.mem_append_right _ List.mem_cons_self
    rw [List.cons_append, lastRule, if_pos hmarked, ih]

theorem Reads.lastRule_eq {front : List Rule} (h : Reads content (front ++ [u])) :
    lastRule (splitLines content) = u.lines := by
  obtain ⟨blanks, hlines, -⟩ := h.lines
  rw [hlines, List.flatMap_append, List.flatMap_singleton, ← List.append_assoc, ← List.cons_append]
  exact lastRule_lines u _

theorem Reads.ended_iff {front : List Rule} (h : Reads content (front ++ [u])) :
    u.Ended ↔ content.getLast? = some lf ∨ content.getLast? = some cr := by
  obtain ⟨blanks, hlines, -⟩ := h.lines
  have hlast : ∀ first tail, u.lines = first ++ [tail] → tail ≠ [] → content.getLast? = tail.getLast? := by
    intro first tail hu hne
    rw [← flatten_splitLines content, hlines, List.flatMap_append, List.flatMap_singleton, hu]
    simp [List.getLast?_append, List.getLast?_eq_some_getLast hne]
  constructor
  · intro hu
    obtain ⟨first, tail, hlines⟩ := u.exists_concat
    have htail : Whole tail := hu tail (by simp [hlines])
    rw [hlast first tail hlines htail.ne_nil]
    exact htail.getLast?
  · intro hends
    rcases Rule.ended_or (h.cut_lines (List.mem_append_right front (List.mem_singleton_self u))) with hu |
      ⟨first, tail, hu, hne, hplain, -⟩
    · exact hu
    · rw [hlast first tail hu hne] at hends
      rcases hends with hlf | hcr
      · exact absurd hlf hplain.getLast?.1
      · exact absurd hcr hplain.getLast?.2

theorem Reads.runsTogether_iff {front : List Rule} (h : Reads content (front ++ [u])) :
    RunsTogether content ↔ ¬u.Ended ∧ ∃ r ∈ front, u.id < r.id := by
  have hmarked : (∃ line ∈ splitLines content, ruleMarker <+: line ∧ ruleId u.first < ruleId line) ↔
      ∃ r ∈ front, u.id < r.id := by
    obtain ⟨blanks, hlines, hblanks⟩ := h.lines
    constructor
    · intro hline
      obtain ⟨line, hline, hmark, hless⟩ := hline
      rw [hlines] at hline
      rcases List.mem_cons.mp hline with rfl | hline
      · exact absurd hmark (by decide +kernel)
      rcases List.mem_append.mp hline with hline | hline
      · exact absurd hmark (hblanks line hline)
      obtain ⟨r, hr, hline⟩ := List.mem_flatMap.mp hline
      obtain rfl : line = r.first := by
        rcases List.mem_cons.mp hline with hfirst | hrest
        · exact hfirst
        · exact absurd hmark (r.unmarked line hrest)
      rcases List.mem_append.mp hr with hr | hr
      · exact ⟨r, hr, hless⟩
      · rw [List.mem_singleton.mp hr] at hless
        exact absurd hless (List.lt_irrefl _)
    · intro hr
      obtain ⟨r, hr, hless⟩ := hr
      refine ⟨r.first, ?_, r.marked, hless⟩
      rw [hlines]
      refine List.mem_cons_of_mem _ (List.mem_append_right _ (List.mem_flatMap.mpr ⟨r, List.mem_append_left _ hr, ?_⟩))
      exact List.mem_cons_self
  have hhead : (lastRule (splitLines content)).headD [] = u.first := by
    rw [h.lastRule_eq]
    rfl
  rw [RunsTogether, hhead, hmarked, h.ended_iff, not_or, and_assoc]

end

/-! ## What the lock says -/

/-- The two contents have the same rules, each with the same block. -/
def SameRules (packId : String) (x y : Bytes) : Prop :=
  ∃ blocks blocks', parseRuleBlocks packId x = .ok blocks ∧ parseRuleBlocks packId y = .ok blocks' ∧
    ∀ rule, rule ∈ blocks ↔ rule ∈ blocks'

/-- The digest of one canonical form is that of another. -/
def Collides (packId : String) (x y : Bytes) : Prop :=
  ∃ blocks blocks', parseRuleBlocks packId x = .ok blocks ∧ parseRuleBlocks packId y = .ok blocks' ∧
    Sha256.hexdigest (canonicalForm blocks) = Sha256.hexdigest (canonicalForm blocks') ∧
    canonicalForm blocks ≠ canonicalForm blocks'

section
variable {packId : String} {x y : Bytes} {front front' : List Rule} {u u' : Rule}

/-- The canonical form is cut into the rules in the order of their names, or
into those with two of them joined. -/
theorem Reads.canonicalForm_lines {content : Bytes} (h : Reads content (front ++ [u])) :
    (¬RunsTogether content ∧
      splitLines (canonicalForm ((front ++ [u]).map Rule.block)) =
        rulesHeader :: (sortedRules (front ++ [u])).flatMap Rule.lines) ∨
    ∃ run : Run (front ++ [u]) u, RunsTogether content ∧ ¬u.Ended ∧
      splitLines (canonicalForm ((front ++ [u]).map Rule.block)) = rulesHeader :: run.read.flatMap Rule.lines := by
  rw [h.runsTogether_iff, canonicalForm_block]
  by_cases hruns : ¬u.Ended ∧ ∃ r ∈ front, u.id < r.id
  · obtain ⟨run, hcut⟩ := h.exists_run hruns.1 hruns.2
    refine .inr ⟨run, hruns, hruns.1, ?_⟩
    rw [← run.flatten_read, splitLines_rules hcut]
  · have hclosed : u.Ended ∨ ∀ r ∈ front, ¬u.id < r.id := by
      by_cases hended : u.Ended
      · exact .inl hended
      · exact .inr fun r hr hless => hruns ⟨hended, r, hr, hless⟩
    exact .inl ⟨hruns, splitLines_rules (h.cut_sorted hclosed)⟩

/-- The blocks of two contents are the same if and only if their rules are. -/
theorem Reads.same_iff (hx : Reads x (front ++ [u])) (hy : Reads y (front' ++ [u'])) :
    (∀ rule, rule ∈ (front ++ [u]).map Rule.block ↔ rule ∈ (front' ++ [u']).map Rule.block) ↔
      ∀ r, r ∈ front ++ [u] ↔ r ∈ front' ++ [u'] := by
  have hmem : ∀ {content content' : Bytes} {rules rules' : List Rule} {r : Rule}, Reads content rules →
      Reads content' rules' → r ∈ rules → r.block ∈ rules'.map Rule.block → r ∈ rules' := by
    intro content content' rules rules' r h h' hr hblock
    obtain ⟨r', hr', hsame⟩ := List.mem_map.mp hblock
    rwa [← Rule.bytes_inj (h'.cut_lines hr') (h.cut_lines hr) (congrArg Prod.snd hsame)]
  constructor
  · intro h r
    exact ⟨fun hr => hmem hx hy hr ((h r.block).mp (List.mem_map_of_mem hr)),
      fun hr => hmem hy hx hr ((h r.block).mpr (List.mem_map_of_mem hr))⟩
  · intro h rule
    simp only [List.mem_map]
    exact exists_congr fun r => and_congr_left' (h r)

theorem Reads.locked (hx : Reads x (front ++ [u])) (hy : Reads y (front' ++ [u']))
    (hlength : (front ++ [u]).length = (front' ++ [u']).length)
    (hcanonical : canonicalForm ((front ++ [u]).map Rule.block) = canonicalForm ((front' ++ [u']).map Rule.block)) :
    (∀ r, r ∈ front ++ [u] ↔ r ∈ front' ++ [u']) ↔ (RunsTogether x → RunsTogether y → u.lines = u'.lines) := by
  have hlines := congrArg splitLines hcanonical
  have hsorted : sortedRules (front ++ [u]) = sortedRules (front' ++ [u']) →
      ∀ r, r ∈ front ++ [u] ↔ r ∈ front' ++ [u'] := by
    intro h r
    rw [← mem_sortedRules, h, mem_sortedRules]
  rcases hx.canonicalForm_lines with ⟨hrunsx, hreadx⟩ | ⟨runx, hrunsx, hendedx, hreadx⟩ <;>
    rcases hy.canonicalForm_lines with ⟨hrunsy, hready⟩ | ⟨runy, hrunsy, hendedy, hready⟩ <;>
    rw [hreadx, hready] at hlines <;>
    have hread := flatMap_lines_inj (List.cons.inj hlines).2
  · exact iff_of_true (hsorted hread) fun hruns => absurd hruns hrunsx
  · have hcount := runy.length_read
    rw [← hread, (sortedRules_perm _).length_eq, hlength] at hcount
    omega
  · have hcount := runx.length_read
    rw [hread, (sortedRules_perm _).length_eq, hlength] at hcount
    omega
  · constructor
    · intro hsame _ _
      have hu : u ∈ front' ++ [u'] := (hsame u).mp (by simp)
      rcases List.mem_append.mp hu with hu | hu
      · exact absurd (hy.ended hu) hendedx
      · rw [List.mem_singleton.mp hu]
    · intro hlast
      obtain rfl : u = u' := by
        obtain ⟨hfirst, hrest⟩ := List.cons.inj (hlast hrunsx hrunsy)
        exact Rule.ext hfirst hrest
      exact hsorted (runx.sorted_eq runy hx.distinct hy.distinct hread)

/-- What the packs that pass are. -/
theorem verifyPacks_ok {readPack : String → Except PackError Bytes} {packs : List Pack} {files : List String}
    {pack : Pack} (h : verifyPacks readPack packs = .ok files) (hpack : pack ∈ packs) :
    ∃ content, readPack pack.file = .ok content ∧
      validatePackContent pack.id content = .ok (pack.canonicalSha256, pack.bytes, pack.rules) := by
  induction packs generalizing files with
  | nil => cases hpack
  | cons first packs ih =>
    obtain ⟨content, hread, h⟩ := bind_ok_iff.mp h
    obtain ⟨⟨digest, size, rules⟩, hvalid, h⟩ := bind_ok_iff.mp h
    obtain ⟨_, hsame, h⟩ := bind_ok_iff.mp h
    obtain ⟨files', hrest, -⟩ := bind_ok_iff.mp h
    rcases List.mem_cons.mp hpack with rfl | hpack
    · obtain ⟨⟨rfl, rfl⟩, rfl⟩ : (digest = pack.canonicalSha256 ∧ size = pack.bytes) ∧ rules = pack.rules := by
        simpa using hsame
      exact ⟨content, hread, hvalid⟩
    · exact ih hrest hpack

/-- At most one of the contents runs together, or both do from the same last rule. -/
def RunAlike (x y : Bytes) : Prop := RunsTogether x → RunsTogether y → lastRule (splitLines x) = lastRule (splitLines y)

theorem sameRules_iff {result : String × Nat × Nat} (hx : validatePackContent packId x = .ok result)
    (hy : validatePackContent packId y = .ok result) (hcollides : ¬Collides packId x y) :
    SameRules packId x y ↔ RunAlike x y := by
  obtain ⟨blocks, hblocks⟩ := exists_parsed hx
  obtain ⟨blocks', hblocks'⟩ := exists_parsed hy
  obtain ⟨front, u, hreads, rfl, rfl⟩ := validatePackContent_ok hx hblocks
  obtain ⟨front', u', hreads', rfl, hresult⟩ := validatePackContent_ok hy hblocks'
  obtain ⟨hdigest, -, hcount⟩ : Sha256.hexdigest _ = Sha256.hexdigest _ ∧ _ ∧ _ := by
    simpa only [Prod.mk.injEq] using hresult
  have hcanonical := not_not.mp fun hne => hcollides ⟨_, _, hblocks, hblocks', hdigest, hne⟩
  have hlength : (front ++ [u]).length = (front' ++ [u']).length := by
    simpa only [List.length_map] using hcount
  have hsame : SameRules packId x y ↔ ∀ r, r ∈ front ++ [u] ↔ r ∈ front' ++ [u'] := by
    rw [← hreads.same_iff hreads']
    constructor
    · intro h
      obtain ⟨_, _, h, h', hrules⟩ := h
      cases hblocks.symm.trans h
      cases hblocks'.symm.trans h'
      exact hrules
    · exact fun h => ⟨_, _, hblocks, hblocks', h⟩
  rw [hsame, hreads.locked hreads' hlength hcanonical, RunAlike, hreads.lastRule_eq, hreads'.lastRule_eq]

/-- `canonicalForm` of two blocks that are not in order. -/
theorem canonicalForm_swap {a b : Bytes × Bytes} (h : a.1 < b.1) : canonicalForm [b, a] = rulesHeader ++ (a.2 ++ b.2) := by
  have hle : ¬b.1 ≤ a.1 := List.not_le.mpr h
  simp [canonicalForm, sortedBlocks, List.mergeSort, List.MergeSort.Internal.splitInTwo, hle]

theorem canonicalForm_pair {a b : Bytes × Bytes} (h : a.1 < b.1) : canonicalForm [a, b] = rulesHeader ++ (a.2 ++ b.2) := by
  have hle : a.1 ≤ b.1 := List.le_of_lt h
  simp [canonicalForm, sortedBlocks, List.mergeSort, List.MergeSort.Internal.splitInTwo, hle]

theorem not_collides {blocks blocks' : List (Bytes × Bytes)} (hx : parseRuleBlocks packId x = .ok blocks)
    (hy : parseRuleBlocks packId y = .ok blocks') (h : canonicalForm blocks = canonicalForm blocks') : ¬Collides packId x y := by
  intro hcollides
  obtain ⟨_, _, hx', hy', -, hne⟩ := hcollides
  cases hx.symm.trans hx'
  cases hy.symm.trans hy'
  exact hne h

/-- **The lock tells the rules**, but for contents that both run together and
do not end in the same rule; and what passes for a pack is a content with the
lock that is pinned. -/
theorem lock_tells_rules {result : String × Nat × Nat} (hy : validatePackContent packId y = .ok result) :
    (∀ x, validatePackContent packId x = .ok result → ¬Collides packId x y → (SameRules packId x y ↔ RunAlike x y)) ∧
    ∀ readPack packs files, verifyPacks readPack packs = .ok files → ∀ pack ∈ packs, pack.id = packId →
      (pack.canonicalSha256, pack.bytes, pack.rules) = result →
      ∃ x, readPack pack.file = .ok x ∧ (¬Collides packId x y → (SameRules packId x y ↔ RunAlike x y)) := by
  refine ⟨fun _ hx => sameRules_iff hx hy, ?_⟩
  intro readPack packs files hverify pack hpack hid hresult
  obtain ⟨x, hread, hx⟩ := verifyPacks_ok hverify hpack
  rw [hid, hresult] at hx
  exact ⟨x, hread, sameRules_iff hx hy⟩

def rulesAB : Bytes := utf8 "rules:\n- id: a\n- id: b\n"
def rulesBA : Bytes := utf8 "rules:\n- id: b\n- id: a\n"

def packAB : Pack where
  id := "p/default"
  file := "default.yml"
  canonicalSha256 := Sha256.hexdigest rulesAB
  bytes := 23
  rules := 2

theorem lock_tells_rules_swapped : SameRules "p/default" rulesBA rulesAB ∧
    ∃ content, (fun _ => Except.ok rulesBA : String → Except PackError Bytes) packAB.file = .ok content ∧
      SameRules packAB.id content rulesAB := by
  have hab : parseRuleBlocks "p/default" rulesAB = .ok [(utf8 "a", utf8 "- id: a\n"), (utf8 "b", utf8 "- id: b\n")] := by
    decide +kernel
  have hba : parseRuleBlocks "p/default" rulesBA = .ok [(utf8 "b", utf8 "- id: b\n"), (utf8 "a", utf8 "- id: a\n")] := by
    decide +kernel
  have hx := validatePackContent_parsed (by decide +kernel) (by decide +kernel) hba (by decide +kernel)
  have hy := validatePackContent_parsed (by decide +kernel) (by decide +kernel) hab (by decide +kernel)
  have hless : utf8 "a" < utf8 "b" := by decide +kernel
  have hsame : canonicalForm [(utf8 "b", utf8 "- id: b\n"), (utf8 "a", utf8 "- id: a\n")] =
      canonicalForm [(utf8 "a", utf8 "- id: a\n"), (utf8 "b", utf8 "- id: b\n")] := by
    rw [canonicalForm_swap hless, canonicalForm_pair hless]
  have hself : canonicalForm [(utf8 "a", utf8 "- id: a\n"), (utf8 "b", utf8 "- id: b\n")] = rulesAB := by
    rw [canonicalForm_pair hless]
    decide +kernel
  rw [hsame, hself] at hx
  rw [hself] at hy
  have halike : RunAlike rulesBA rulesAB := fun hruns => absurd (by decide +kernel) hruns.1
  have hcollides := not_collides hba hab hsame
  obtain ⟨hlock, hpacks⟩ := lock_tells_rules hy
  refine ⟨(hlock rulesBA hx hcollides).mpr halike, ?_⟩
  have hverify : verifyPacks (fun _ => .ok rulesBA) [packAB] = .ok ["default.yml"] := by
    have hlength : rulesBA.length = 23 := by decide +kernel
    simp [verifyPacks, packAB, hx, hlength]
  obtain ⟨content, hread, hrules⟩ := hpacks _ [packAB] _ hverify packAB (List.mem_singleton_self _) rfl rfl
  cases hread
  exact ⟨rulesBA, rfl, (hrules hcollides).mpr halike⟩

/-- The rules `b` and `a`, with `#- id: c` as a remark on the first. -/
def remarkC : Bytes := utf8 "rules:\n- id: b #- id: c\n- id: a #"

/-- The rules `c` and `a`, with `#- id: b #` as a remark on the last. -/
def remarkB : Bytes := utf8 "rules:\n- id: c\n- id: a #- id: b #"

/-- **Two contents with other rules and the same lock**: in the order of their
names, the rules of both are `- id: a #- id: b #- id: c`. -/
theorem lock_tells_others : ¬∀ packId x y result, validatePackContent packId x = .ok result →
    validatePackContent packId y = .ok result → ¬Collides packId x y → SameRules packId x y := by
  intro h
  have hc : parseRuleBlocks "p/default" remarkC =
      .ok [(utf8 "b #- id: c", utf8 "- id: b #- id: c\n"), (utf8 "a #", utf8 "- id: a #")] := by
    decide +kernel
  have hb : parseRuleBlocks "p/default" remarkB =
      .ok [(utf8 "c", utf8 "- id: c\n"), (utf8 "a #- id: b #", utf8 "- id: a #- id: b #")] := by
    decide +kernel
  have hx := validatePackContent_parsed (by decide +kernel) (by decide +kernel) hc (by decide +kernel)
  have hy := validatePackContent_parsed (by decide +kernel) (by decide +kernel) hb (by decide +kernel)
  have hlessC : utf8 "a #" < utf8 "b #- id: c" := by decide +kernel
  have hlessB : utf8 "a #- id: b #" < utf8 "c" := by decide +kernel
  have hsame : canonicalForm [(utf8 "b #- id: c", utf8 "- id: b #- id: c\n"), (utf8 "a #", utf8 "- id: a #")] =
      canonicalForm [(utf8 "c", utf8 "- id: c\n"), (utf8 "a #- id: b #", utf8 "- id: a #- id: b #")] := by
    rw [canonicalForm_swap hlessC, canonicalForm_swap hlessB]
    decide +kernel
  have hlength : remarkC.length = remarkB.length := by decide +kernel
  rw [hsame, hlength] at hx
  obtain ⟨_, _, hx', hy', hrules⟩ := h "p/default" remarkC remarkB _ hx hy (not_collides hc hb hsame)
  cases hc.symm.trans hx'
  cases hb.symm.trans hy'
  have hmem := (hrules (utf8 "a #", utf8 "- id: a #")).mp (by simp)
  exact absurd hmem (by decide +kernel)

end

end AgentHarness.Scripts
