/-
The rules of a pack, each a line that names it and the lines up to the next
such line. A content that is accepted is blank lines and rules; which rules
there are can be told from their lines alone, and their lines can be told from
the bytes if all but the last end in an end of a line.
-/
import Mathlib.Data.List.TakeDrop
import AgentHarness.Scripts.Packs

namespace AgentHarness.Scripts

open Text Except LineEnds

@[ext]
structure Rule where
  first : Bytes
  rest : List Bytes
  marked : ruleMarker <+: first
  unmarked : ∀ line ∈ rest, ¬ruleMarker <+: line
  named : strip (first.drop ruleMarker.length) ≠ []

namespace Rule

def lines (r : Rule) : List Bytes := r.first :: r.rest

def id (r : Rule) : Bytes := strip (r.first.drop ruleMarker.length)

def bytes (r : Rule) : Bytes := r.lines.flatten

/-- What is made of the rule. -/
def block (r : Rule) : Bytes × Bytes := (r.id, r.bytes)

/-- Every line of the rule has its end. -/
def Ended (r : Rule) : Prop := ∀ line ∈ r.lines, Whole line

end Rule

section
variable {rules rules' : List Rule} {rest rest' : List Bytes}

/-! ## Rules and their lines -/

theorem takeWhile_unmarked (h : ∀ line ∈ rest, ¬ruleMarker <+: line) (rules : List Rule) :
    (rest ++ rules.flatMap Rule.lines).takeWhile (fun line => !ruleMarker.isPrefixOf line) = rest := by
  have hrest : ∀ line ∈ rest, (!ruleMarker.isPrefixOf line) = true := by
    intro line hline
    rw [Bool.not_eq_true', Bool.eq_false_iff]
    exact fun hprefix => h line hline (List.isPrefixOf_iff_prefix.mp hprefix)
  rw [List.takeWhile_append_of_pos hrest]
  cases rules with
  | nil => simp
  | cons r rules =>
    have hfirst : ruleMarker.isPrefixOf r.first = true := List.isPrefixOf_iff_prefix.mpr r.marked
    simp [Rule.lines, hfirst]

/-- The rules can be told from their lines. -/
theorem flatMap_lines_inj (h : rules.flatMap Rule.lines = rules'.flatMap Rule.lines) : rules = rules' := by
  induction rules generalizing rules' with
  | nil =>
    cases rules' with
    | nil => rfl
    | cons r rules' => cases h
  | cons r rules ih =>
    cases rules' with
    | nil => cases h
    | cons r' rules' =>
      obtain ⟨hfirst, hrest⟩ := List.cons.inj h
      have hsame : r.rest = r'.rest := by
        have htake := congrArg (List.takeWhile fun line => !ruleMarker.isPrefixOf line) hrest
        have htake' : (r.rest ++ rules.flatMap Rule.lines).takeWhile (fun line => !ruleMarker.isPrefixOf line) =
            (r'.rest ++ rules'.flatMap Rule.lines).takeWhile (fun line => !ruleMarker.isPrefixOf line) := htake
        rwa [takeWhile_unmarked r.unmarked, takeWhile_unmarked r'.unmarked] at htake'
      have hrules : rules.flatMap Rule.lines = rules'.flatMap Rule.lines := by
        have happend : r.rest ++ rules.flatMap Rule.lines = r'.rest ++ rules'.flatMap Rule.lines := hrest
        rw [hsame] at happend
        exact List.append_cancel_left happend
      rw [Rule.ext hfirst hsame, ih hrules]

/-! ## Parsing -/

theorem Parsing.line_ok {packId : String} {p q : Parsing} {line : Bytes} (h : p.line packId line = .ok q) :
    (ruleMarker <+: line ∧ strip (line.drop ruleMarker.length) ≠ [] ∧
      q = { blocks := p.flush, currentId := some (strip (line.drop ruleMarker.length)), currentLines := [line] }) ∨
    ¬ruleMarker <+: line ∧ ((p.currentId = none ∧ strip line = [] ∧ q = p) ∨
      ∃ id, p.currentId = some id ∧ q = { p with currentLines := p.currentLines ++ [line] }) := by
  unfold Parsing.line at h
  split at h
  · rename_i hmarked
    obtain ⟨_, hnamed, hq⟩ := bind_ok_iff.mp h
    cases hq
    exact .inl ⟨List.isPrefixOf_iff_prefix.mp hmarked, by simpa using hnamed, rfl⟩
  · rename_i hmarked
    have hunmarked : ¬ruleMarker <+: line := fun hprefix => hmarked (List.isPrefixOf_iff_prefix.mpr hprefix)
    split at h
    · rename_i hnone
      obtain ⟨_, hblank, hq⟩ := bind_ok_iff.mp h
      cases hq
      exact .inr ⟨hunmarked, .inl ⟨hnone, by simpa using hblank, rfl⟩⟩
    · rename_i id hsome
      cases h
      exact .inr ⟨hunmarked, .inr ⟨id, hsome, rfl⟩⟩

/-- What follows in a rule, and the rules after it. -/
theorem foldlM_line_some {packId : String} {p q : Parsing} {id : Bytes} {lines : List Bytes} (hid : p.currentId = some id)
    (h : lines.foldlM (Parsing.line packId) p = .ok q) :
    ∃ (rest : List Bytes) (rules : List Rule), lines = rest ++ rules.flatMap Rule.lines ∧
      (∀ line ∈ rest, ¬ruleMarker <+: line) ∧
      q.flush = p.blocks ++ (id, (p.currentLines ++ rest).flatten) :: rules.map Rule.block := by
  induction lines generalizing p id with
  | nil =>
    cases h
    refine ⟨[], [], rfl, by simp, ?_⟩
    simp [Parsing.flush, hid]
  | cons line lines ih =>
    rw [List.foldlM_cons] at h
    obtain ⟨p', hline, hlines⟩ := bind_ok_iff.mp h
    rcases Parsing.line_ok hline with ⟨hmarked, hnamed, rfl⟩ | ⟨hunmarked, ⟨hnone, -⟩ | ⟨id', -, rfl⟩⟩
    · obtain ⟨rest, rules, rfl, hrest, hflush⟩ := ih rfl hlines
      let r : Rule := { first := line, rest, marked := hmarked, unmarked := hrest, named := hnamed }
      refine ⟨[], r :: rules, rfl, by simp, ?_⟩
      rw [hflush]
      simp [Parsing.flush, hid, r, Rule.block, Rule.id, Rule.bytes, Rule.lines]
    · rw [hid] at hnone
      cases hnone
    · obtain ⟨rest, rules, rfl, hrest, hflush⟩ := ih (p := { p with currentLines := p.currentLines ++ [line] }) hid hlines
      refine ⟨line :: rest, rules, rfl, ?_, ?_⟩
      · intro l hl
        rcases List.mem_cons.mp hl with rfl | hl
        · exact hunmarked
        · exact hrest l hl
      · rw [hflush]
        simp

theorem foldlM_line_none {packId : String} {p q : Parsing} {lines : List Bytes} (hid : p.currentId = none)
    (h : lines.foldlM (Parsing.line packId) p = .ok q) :
    ∃ (blanks : List Bytes) (rules : List Rule), lines = blanks ++ rules.flatMap Rule.lines ∧
      (∀ line ∈ blanks, ¬ruleMarker <+: line ∧ strip line = []) ∧
      q.flush = p.blocks ++ rules.map Rule.block := by
  induction lines generalizing p with
  | nil =>
    cases h
    refine ⟨[], [], rfl, by simp, ?_⟩
    simp [Parsing.flush, hid]
  | cons line lines ih =>
    rw [List.foldlM_cons] at h
    obtain ⟨p', hline, hlines⟩ := bind_ok_iff.mp h
    rcases Parsing.line_ok hline with ⟨hmarked, hnamed, rfl⟩ | ⟨hunmarked, ⟨-, hblank, rfl⟩ | ⟨id, hsome, -⟩⟩
    · obtain ⟨rest, rules, rfl, hrest, hflush⟩ := foldlM_line_some rfl hlines
      let r : Rule := { first := line, rest, marked := hmarked, unmarked := hrest, named := hnamed }
      refine ⟨[], r :: rules, rfl, by simp, ?_⟩
      rw [hflush]
      simp [Parsing.flush, hid, r, Rule.block, Rule.id, Rule.bytes, Rule.lines]
    · obtain ⟨blanks, rules, rfl, hblanks, hflush⟩ := ih hid hlines
      refine ⟨line :: blanks, rules, rfl, ?_, hflush⟩
      intro l hl
      rcases List.mem_cons.mp hl with rfl | hl
      · exact ⟨hunmarked, hblank⟩
      · exact hblanks l hl
    · rw [hid] at hsome
      cases hsome

theorem parseRuleBlocks_ok {packId : String} {content : Bytes} {blocks : List (Bytes × Bytes)}
    (h : parseRuleBlocks packId content = .ok blocks) :
    ∃ (blanks : List Bytes) (rules : List Rule), (splitLines content).tail = blanks ++ rules.flatMap Rule.lines ∧
      (∀ line ∈ blanks, ¬ruleMarker <+: line ∧ strip line = []) ∧ rules ≠ [] ∧ blocks = rules.map Rule.block := by
  obtain ⟨q, hlines, h⟩ := bind_ok_iff.mp h
  obtain ⟨_, hsome, h⟩ := bind_ok_iff.mp h
  cases h
  obtain ⟨blanks, rules, htail, hblanks, hflush⟩ := foldlM_line_none rfl hlines
  have hblocks : q.flush = rules.map Rule.block := hflush
  refine ⟨blanks, rules, htail, hblanks, fun hnil => ?_, hblocks⟩
  rw [hblocks, hnil] at hsome
  cases hsome

theorem Parsing.line_marked {packId : String} (p : Parsing) {line : Bytes} (hmarked : ruleMarker <+: line)
    (hnamed : strip (line.drop ruleMarker.length) ≠ []) :
    p.line packId line = .ok
      { blocks := p.flush, currentId := some (strip (line.drop ruleMarker.length)), currentLines := [line] } := by
  rw [Parsing.line, if_pos (List.isPrefixOf_iff_prefix.mpr hmarked)]
  simp [hnamed]

theorem Parsing.line_blank {packId : String} {p : Parsing} {line : Bytes} (hid : p.currentId = none)
    (hunmarked : ¬ruleMarker <+: line) (hblank : strip line = []) : p.line packId line = .ok p := by
  rw [Parsing.line, if_neg fun hprefix => hunmarked (List.isPrefixOf_iff_prefix.mp hprefix), hid]
  simp [hblank]

theorem Parsing.line_unmarked {packId : String} {p : Parsing} {line id : Bytes} (hid : p.currentId = some id)
    (hunmarked : ¬ruleMarker <+: line) : p.line packId line = .ok { p with currentLines := p.currentLines ++ [line] } := by
  rw [Parsing.line, if_neg fun hprefix => hunmarked (List.isPrefixOf_iff_prefix.mp hprefix), hid]
  rfl

/-- What comes before the rules adds nothing. -/
theorem foldlM_line_blanks {packId : String} {blanks : List Bytes}
    (h : ∀ line ∈ blanks, ¬ruleMarker <+: line ∧ strip line = []) :
    blanks.foldlM (Parsing.line packId) .initial = .ok .initial := by
  induction blanks with
  | nil => rfl
  | cons line blanks ih =>
    obtain ⟨hunmarked, hblank⟩ := h line List.mem_cons_self
    rw [List.foldlM_cons, Parsing.line_blank rfl hunmarked hblank, ok_bind, ih fun line hline => h line (List.mem_cons_of_mem _ hline)]

theorem foldlM_line_unmarked {packId : String} {p : Parsing} {id : Bytes} (hid : p.currentId = some id)
    (h : ∀ line ∈ rest, ¬ruleMarker <+: line) :
    rest.foldlM (Parsing.line packId) p = .ok { p with currentLines := p.currentLines ++ rest } := by
  induction rest generalizing p with
  | nil =>
    rw [List.append_nil]
    rfl
  | cons line rest ih =>
    rw [List.foldlM_cons, Parsing.line_unmarked hid (h line List.mem_cons_self), ok_bind,
      ih (p := { p with currentLines := p.currentLines ++ [line] }) hid fun line hline => h line (List.mem_cons_of_mem _ hline),
      List.append_assoc, List.singleton_append]

/-- Rules are read as they are. -/
theorem foldlM_line_rules (packId : String) (p : Parsing) (rules : List Rule) :
    ∃ q, (rules.flatMap Rule.lines).foldlM (Parsing.line packId) p = .ok q ∧ q.flush = p.flush ++ rules.map Rule.block := by
  induction rules generalizing p with
  | nil => exact ⟨p, rfl, by simp⟩
  | cons r rules ih =>
    let p' : Parsing := { blocks := p.flush, currentId := some r.id, currentLines := r.lines }
    have hr : r.lines.foldlM (Parsing.line packId) p = .ok p' := by
      rw [Rule.lines, List.foldlM_cons, Parsing.line_marked p r.marked r.named, ok_bind,
        foldlM_line_unmarked rfl r.unmarked]
      rfl
    obtain ⟨q, hrules, hflush⟩ := ih p'
    refine ⟨q, ?_, ?_⟩
    · rw [List.flatMap_cons, List.foldlM_append, hr, ok_bind, hrules]
    · rw [hflush]
      simp [p', Parsing.flush, Rule.block, Rule.bytes]

/-- Lines that are blank and then those of rules are parsed as the rules. -/
theorem parseRuleBlocks_lines (packId : String) {content first : Bytes} {blanks : List Bytes}
    (hlines : splitLines content = first :: (blanks ++ rules.flatMap Rule.lines))
    (hblanks : ∀ line ∈ blanks, ¬ruleMarker <+: line ∧ strip line = []) (hne : rules ≠ []) :
    parseRuleBlocks packId content = .ok (rules.map Rule.block) := by
  obtain ⟨q, hrules, hflush⟩ := foldlM_line_rules packId .initial rules
  have hq : q.flush = rules.map Rule.block := hflush
  have hparsed : (splitLines content).tail.foldlM (Parsing.line packId) .initial = .ok q := by
    rw [hlines, List.tail_cons, List.foldlM_append, foldlM_line_blanks hblanks, ok_bind, hrules]
  simp [parseRuleBlocks, hparsed, hq, hne]

/-! ## Rules one after the other -/

theorem ruleMarker_eq : ruleMarker = [0x2d, 0x20, 0x69, 0x64, 0x3a, 0x20] := by decide +kernel

theorem rulesHeader_eq : rulesHeader = [0x72, 0x75, 0x6c, 0x65, 0x73, 0x3a, 0x0a] := by decide +kernel

theorem whole_rulesHeader : Whole rulesHeader := by
  refine ⟨[0x72, 0x75, 0x6c, 0x65, 0x73, 0x3a], [lf], rulesHeader_eq, ?_, .lf⟩
  intro b hb
  simp only [List.mem_cons, List.not_mem_nil, or_false] at hb
  rcases hb with rfl | rfl | rfl | rfl | rfl | rfl <;> decide

theorem Rule.first_head? (r : Rule) : r.first.head? = some 0x2d := by
  obtain ⟨name, hname⟩ := r.marked
  rw [← hname, ruleMarker_eq]
  rfl

/-- Rules do not begin with a line feed. -/
theorem flatMap_lines_head? (rules : List Rule) : (rules.flatMap Rule.lines).flatten.head? ≠ some lf := by
  cases rules with
  | nil => simp
  | cons r rules =>
    have hflatten : ((r :: rules).flatMap Rule.lines).flatten =
        r.first ++ (r.rest ++ rules.flatMap Rule.lines).flatten := rfl
    rw [hflatten, List.head?_append, r.first_head?, Option.some_or]
    decide

/-- Rules that are each cut into their lines are so one after the other. -/
theorem cut_flatMap (hcut : ∀ r ∈ rules, Cut r.lines) (hended : ∀ r ∈ rules.dropLast, r.Ended) :
    Cut (rules.flatMap Rule.lines) := by
  induction rules with
  | nil => exact .nil
  | cons r rules ih =>
    have hrest : Cut (rules.flatMap Rule.lines) := by
      refine ih (fun r' hr' => hcut r' (List.mem_cons_of_mem _ hr')) fun r' hr' => hended r' ?_
      cases rules with
      | nil => cases hr'
      | cons _ _ => exact List.mem_cons_of_mem _ hr'
    cases rules with
    | nil => simpa using hcut r List.mem_cons_self
    | cons r' rules =>
      exact (hcut r List.mem_cons_self).append (hended r List.mem_cons_self) hrest (flatMap_lines_head? _)

/-- The bytes of rules that follow the header are cut into the header and their lines. -/
theorem splitLines_rules (h : Cut (rules.flatMap Rule.lines)) :
    splitLines (rulesHeader ++ (rules.flatMap Rule.lines).flatten) = rulesHeader :: rules.flatMap Rule.lines := by
  have hparted : Parted rulesHeader (rules.flatMap Rule.lines).flatten := fun _ => flatMap_lines_head? rules
  rw [splitLines_cons whole_rulesHeader hparted, splitLines_flatten h]

/-! ## A rule that runs into the next -/

/-- What is added after a name only adds to it. -/
theorem strip_prefix {bytes more : Bytes} (h : strip bytes ≠ []) : strip bytes <+: strip (bytes ++ more) := by
  have hleft : bytes.dropWhile isSpace ≠ [] := by
    intro hnil
    exact h (by rw [strip, hnil]; rfl)
  have hdrop : (bytes ++ more).dropWhile isSpace = bytes.dropWhile isSpace ++ more := by
    rw [List.dropWhile_append, if_neg (by simpa using hleft)]
  rw [strip, strip, hdrop, List.rdropWhile, List.rdropWhile, List.reverse_append, List.dropWhile_append]
  split
  · exact List.prefix_refl _
  · rw [List.reverse_append, List.reverse_reverse]
    refine List.IsPrefix.trans ?_ (List.prefix_append _ _)
    have hsuffix := List.dropWhile_suffix isSpace (l := (bytes.dropWhile isSpace).reverse)
    simpa using List.reverse_prefix.mpr hsuffix

/-- No line becomes one that names a rule by what follows it: the marker does
not begin again within itself. -/
theorem ruleMarker_prefix_append {line more : Bytes} (hmore : ruleMarker <+: more) (hne : line ≠ [])
    (h : ruleMarker <+: line ++ more) : ruleMarker <+: line := by
  by_cases hlong : ruleMarker.length ≤ line.length
  · exact List.prefix_of_prefix_length_le h (List.prefix_append line more) hlong
  · obtain ⟨rest, hrest⟩ := h
    obtain ⟨name, rfl⟩ := hmore
    have hpos := List.length_pos_iff.mpr hne
    have hbyte : ruleMarker[line.length]? = some 0x2d := by
      have hat := congrArg (·[line.length]?) hrest
      rw [List.getElem?_append_left (by omega), List.getElem?_append_right (Nat.le_refl _), Nat.sub_self,
        ruleMarker_eq] at hat
      rw [ruleMarker_eq]
      exact hat
    rw [ruleMarker_eq] at hbyte hlong
    simp only [List.length_cons, List.length_nil] at hlong
    have hplace : line.length = 1 ∨ line.length = 2 ∨ line.length = 3 ∨ line.length = 4 ∨ line.length = 5 := by omega
    rcases hplace with hn | hn | hn | hn | hn <;> rw [hn] at hbyte <;> cases hbyte

/-- A rule whose last line has no end is one with the rule after it, and does
not come earlier by its name. -/
theorem exists_joined {u : Rule} {front : List Bytes} {tail : Bytes} (v : Rule) (hu : u.lines = front ++ [tail])
    (hne : tail ≠ []) : ∃ w : Rule, w.lines = front ++ (tail ++ v.first) :: v.rest ∧ u.id ≤ w.id := by
  cases front with
  | nil =>
    obtain ⟨hfirst, -⟩ := List.cons.inj hu
    have hdrop : (tail ++ v.first).drop ruleMarker.length = u.first.drop ruleMarker.length ++ v.first := by
      rw [← hfirst, List.drop_append_of_le_length u.marked.length_le]
    have hprefix : strip (u.first.drop ruleMarker.length) <+: strip ((tail ++ v.first).drop ruleMarker.length) := by
      rw [hdrop]
      exact strip_prefix u.named
    refine ⟨⟨tail ++ v.first, v.rest, ?_, v.unmarked, fun hnil => ?_⟩, rfl, hprefix.le⟩
    · rw [← hfirst]
      exact u.marked.trans (List.prefix_append _ _)
    · rw [hnil] at hprefix
      exact u.named (List.prefix_nil.mp hprefix)
  | cons first front =>
    obtain ⟨hfirst, hrest⟩ := List.cons.inj hu
    have hunmarked : ∀ line ∈ front ++ (tail ++ v.first) :: v.rest, ¬ruleMarker <+: line := by
      have hlines : u.rest = front ++ [tail] := hrest
      have hu' : ∀ line ∈ front ++ [tail], ¬ruleMarker <+: line := hlines ▸ u.unmarked
      intro line hline
      rcases List.mem_append.mp hline with hline | hline
      · exact hu' line (List.mem_append_left _ hline)
      · rcases List.mem_cons.mp hline with rfl | hline
        · exact fun h => hu' tail (by simp) (ruleMarker_prefix_append v.marked hne h)
        · exact v.unmarked line hline
    refine ⟨⟨u.first, front ++ (tail ++ v.first) :: v.rest, u.marked, hunmarked, u.named⟩, ?_, List.le_refl _⟩
    exact congrArg (· :: (front ++ (tail ++ v.first) :: v.rest)) hfirst

end

end AgentHarness.Scripts
