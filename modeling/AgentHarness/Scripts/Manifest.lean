/-
The manifest of the Semgrep packs, and the two commands over it. A manifest
that is accepted has one form, which is accepted as itself
(`validateManifest_toValue`). `verify` passes just where `update` finds
nothing to change (`verify_iff_current`), and passes on whatever `update`
leaves (`update_verifies`).

What Python writes for a value in a message is a parameter.
-/
import AgentHarness.Scripts.Lock

namespace AgentHarness.Scripts

open Text Except

/-! ## Values -/

/-- What `json.loads` returns. -/
inductive Value where
  | null
  | bool (b : Bool)
  | int (n : Int)
  | float (bits : UInt64)
  | str (s : String)
  | list (items : List Value)
  | dict (members : List (String × Value))

namespace Value

/-- `type(..) is int`; a truth value is none. -/
def asInt : Value → Option Int
  | .int n => some n
  | _ => none

def asStr : Value → Option String
  | .str s => some s
  | _ => none

end Value

abbrev Members := List (String × Value)

def memberInt (members : Members) (name : String) : Option Int := (members.lookup name).bind Value.asInt
def memberStr (members : Members) (name : String) : Option String := (members.lookup name).bind Value.asStr

/-! ## The check of a manifest -/

def manifestFields : List String := ["schemaVersion", "semgrepVersion", "license", "licenseUrl", "packs"]
def packFields : List String := ["id", "url", "file", "canonicalSha256", "bytes", "rules"]
def license : String := "Semgrep Rules License v1.0"
def licenseUrl : String := "https://semgrep.dev/legal/rules-license/"
def semgrepVersion : String := "1.173.0"

structure PackSpec where
  url : String
  file : String
  deriving DecidableEq, Repr

def packSpecs : List (String × PackSpec) := [
  ("p/default", { url := "https://semgrep.dev/c/p/default", file := "default.yml" }),
  ("p/security-audit", { url := "https://semgrep.dev/c/p/security-audit", file := "security-audit.yml" })]

/-- A pack that has been checked. -/
structure LockedPack extends Pack where
  url : String
  deriving DecidableEq, Repr

structure Manifest where
  schemaVersion : Int
  semgrepVersion : String
  license : String
  licenseUrl : String
  packs : List LockedPack
  deriving DecidableEq, Repr

/-- The manifest of some packs. -/
def manifestOf (packs : List LockedPack) : Manifest where
  schemaVersion := 1
  semgrepVersion := semgrepVersion
  license := license
  licenseUrl := licenseUrl
  packs := packs

def mapping (value : Value) (label : String) : Except PackError Members :=
  match value with
  | .dict members => .ok members
  | _ => .error ⟨s!"{label} must be a JSON object"⟩

/-- `sorted(..)` of names, as it is shown. -/
def sortedNames (repr : Value → String) (names : List String) : String :=
  repr (.list ((names.mergeSort fun a b => decide (a ≤ b)).map .str))

def isHexDigit (character : Char) : Bool := "0123456789abcdef".toList.contains character

def validDigest (digest : String) : Bool := digest.toList.length == 64 && digest.toList.all isHexDigit

def packIds (packs : List LockedPack) : List String := packs.map fun pack => pack.id

section
variable (repr : Value → String)

def exactFields (value : Members) (expected : List String) (label : String) : Except PackError Unit :=
  let actual := value.map Prod.fst
  let missing := sortedNames repr (expected.filter fun name => !actual.contains name)
  let unknown := sortedNames repr (actual.filter fun name => !expected.contains name)
  rejectIf (!(expected.all actual.contains && actual.all expected.contains))
    ⟨s!"{label} fields differ: missing={missing}, unknown={unknown}"⟩

def validateManifestHeader (manifest : Members) : Except PackError Unit := do
  rejectIf (memberInt manifest "schemaVersion" != some 1) ⟨"Semgrep pack manifest.schemaVersion must be 1"⟩
  rejectIf (memberStr manifest "semgrepVersion" != some semgrepVersion)
    ⟨s!"Semgrep pack manifest.semgrepVersion must be {semgrepVersion}"⟩
  rejectIf (memberStr manifest "license" != some license || memberStr manifest "licenseUrl" != some licenseUrl)
    ⟨"Semgrep pack manifest license metadata differs"⟩

def normalizePack (value : Value) (index : Nat) : Except PackError LockedPack := do
  let label := s!"Semgrep pack manifest.packs[{index}]"
  let pack ← mapping value label
  exactFields repr pack packFields label
  let shown := repr ((pack.lookup "id").getD .null)
  let packId ← okOr (memberStr pack "id") ⟨s!"unexpected Semgrep pack id: {shown}"⟩
  let spec ← okOr (packSpecs.lookup packId) ⟨s!"unexpected Semgrep pack id: {shown}"⟩
  rejectIf (memberStr pack "url" != some spec.url || memberStr pack "file" != some spec.file)
    ⟨s!"Semgrep pack source differs for {packId}"⟩
  let badDigest := PackError.mk s!"Semgrep pack canonicalSha256 is invalid for {packId}"
  let digest ← okOr (memberStr pack "canonicalSha256") badDigest
  rejectIf (!validDigest digest) badDigest
  let badSize := PackError.mk s!"Semgrep pack byte size is invalid for {packId}"
  let size ← okOr (memberInt pack "bytes") badSize
  rejectIf (size < 1 || size > maxPackBytes) badSize
  let badRules := PackError.mk s!"Semgrep pack rule count is invalid for {packId}"
  let rules ← okOr (memberInt pack "rules") badRules
  rejectIf (rules < 1) badRules
  return { id := packId, url := spec.url, file := spec.file, canonicalSha256 := digest, bytes := size.toNat, rules := rules.toNat }

/-- The packs by their ids, after those of the items before. -/
def normalizeItems : (index : Nat) → List LockedPack → List Value → Except PackError (List LockedPack)
  | _, normalized, [] => return normalized
  | index, normalized, item :: items => do
    let pack ← normalizePack repr item index
    let packId := pack.id
    rejectIf ((packIds normalized).contains packId) ⟨s!"duplicate Semgrep pack id: {packId}"⟩
    normalizeItems (index + 1) (normalized ++ [pack]) items

def normalizePacks (value : Value) : Except PackError (List LockedPack) :=
  match value with
  | .list items => do
    let normalized ← normalizeItems repr 0 [] items
    let ids := packIds normalized
    let specs := packSpecs.map Prod.fst
    let expected := sortedNames repr specs
    let actual := sortedNames repr ids
    rejectIf (!(ids.all specs.contains && specs.all ids.contains))
      ⟨s!"Semgrep pack set differs: expected={expected}, actual={actual}"⟩
    return normalized
  | _ => .error ⟨"Semgrep pack manifest.packs must be a list"⟩

/-- The packs in the order of the specs. -/
def inOrder (normalized : List LockedPack) : List LockedPack :=
  packSpecs.filterMap fun spec => normalized.find? fun pack => pack.id == spec.1

def validateManifest (value : Value) : Except PackError Manifest := do
  let manifest ← mapping value "Semgrep pack manifest"
  exactFields repr manifest manifestFields "Semgrep pack manifest"
  validateManifestHeader manifest
  let normalized ← normalizePacks repr ((manifest.lookup "packs").getD .null)
  return manifestOf (inOrder normalized)

end

/-! ## The commands -/

section
variable (repr : Value → String) (readPack : String → Except PackError Bytes)

def verifyManifest (manifest : Value) : Except PackError (List String) := do
  let normalized ← validateManifest repr manifest
  verifyPacks readPack (normalized.packs.map LockedPack.toPack)

def refreshPacks : List LockedPack → Except PackError (List LockedPack)
  | [] => return []
  | pack :: packs => do
    let content ← readPack pack.file
    let (digest, size, rules) ← validatePackContent pack.id content
    return { pack with canonicalSha256 := digest, bytes := size, rules } :: (← refreshPacks packs)

def refreshManifest (manifest : Value) : Except PackError Manifest := do
  let normalized ← validateManifest repr manifest
  return { normalized with packs := ← refreshPacks readPack normalized.packs }

end

def LockedPack.members (pack : LockedPack) : Members := [
  ("id", .str pack.id),
  ("url", .str pack.url),
  ("file", .str pack.file),
  ("canonicalSha256", .str pack.canonicalSha256),
  ("bytes", .int pack.bytes),
  ("rules", .int pack.rules)]

def Manifest.members (manifest : Manifest) : Members := [
  ("schemaVersion", .int manifest.schemaVersion),
  ("semgrepVersion", .str manifest.semgrepVersion),
  ("license", .str manifest.license),
  ("licenseUrl", .str manifest.licenseUrl),
  ("packs", .list (manifest.packs.map fun pack => .dict pack.members))]

/-- What is written of a manifest. -/
def Manifest.toValue (manifest : Manifest) : Value := .dict manifest.members

inductive ManifestCommand where
  | verify
  | update
  deriving DecidableEq, Repr

/-- What a command prints and, where it changes the manifest, writes. -/
structure Done where
  printed : String
  written : Option Value

/-- `main`, from the manifest that is there. -/
def runMain (repr : Value → String) (readPack : String → Except PackError Bytes) (write : Value → Except PackError Unit)
    (manifest : Value) : ManifestCommand → Except PackError Done
  | .verify => do
    let verified := (← verifyManifest repr readPack manifest).length
    return { printed := s!"Verified {verified} Semgrep rule packs", written := none }
  | .update => do
    let refreshed ← refreshManifest repr readPack manifest
    if refreshed = (← validateManifest repr manifest) then
      return { printed := "Semgrep rule pack hashes are current", written := none }
    else
      write refreshed.toValue
      return { printed := "Updated Semgrep rule pack hashes", written := some refreshed.toValue }

/-! ## What is accepted -/

structure LockedPack.Valid (pack : LockedPack) : Prop where
  source : packSpecs.lookup pack.id = some { url := pack.url, file := pack.file }
  digest : validDigest pack.canonicalSha256 = true
  size : 1 ≤ pack.bytes ∧ pack.bytes ≤ maxPackBytes
  rules : 1 ≤ pack.rules

/-- A manifest in its one form. -/
structure Manifest.Valid (manifest : Manifest) : Prop where
  header : manifest = manifestOf manifest.packs
  ids : packIds manifest.packs = packSpecs.map Prod.fst
  packs : ∀ pack ∈ manifest.packs, pack.Valid

section
variable {repr : Value → String} {pack : LockedPack} {packs : List LockedPack} {manifest : Manifest} {value : Value}

theorem normalizePack_valid {index : Nat} (h : normalizePack repr value index = .ok pack) : pack.Valid := by
  simp only [normalizePack, bind_ok_iff, okOr_ok_iff, rejectIf_ok_iff, pure_ok_iff] at h
  obtain ⟨members, -, _, -, packId, -, spec, hspec, _, -, digest, -, _, hdigest, size, -, _, hsize, rules, -, _, hrules, rfl⟩ := h
  simp only [Bool.or_eq_false_iff, decide_eq_false_iff_not] at hsize hrules
  exact ⟨hspec, by simpa using hdigest, by dsimp only; omega, by dsimp only; omega⟩

theorem exactFields_self (members : Members) (label : String) : exactFields repr members (members.map Prod.fst) label = .ok () := by
  have hsame : ((members.map Prod.fst).all (members.map Prod.fst).contains) = true :=
    List.all_eq_true.mpr fun name hname => List.contains_iff_mem.mpr hname
  simp only [exactFields, hsame, Bool.and_self, Bool.not_true, rejectIf_false]

theorem LockedPack.members_read (pack : LockedPack) :
    memberStr pack.members "id" = some pack.id ∧ memberStr pack.members "url" = some pack.url ∧
      memberStr pack.members "file" = some pack.file ∧
      memberStr pack.members "canonicalSha256" = some pack.canonicalSha256 ∧
      memberInt pack.members "bytes" = some (pack.bytes : Int) ∧ memberInt pack.members "rules" = some (pack.rules : Int) := by
  simp [LockedPack.members, memberStr, memberInt, List.lookup_cons, Value.asStr, Value.asInt]

theorem normalizePack_members (hvalid : pack.Valid) (index : Nat) : normalizePack repr (.dict pack.members) index = .ok pack := by
  obtain ⟨hsource, hdigest, ⟨hmin, hmax⟩, hrules⟩ := hvalid
  obtain ⟨hid, hurl, hfile, hsha, hbytes, hcount⟩ := pack.members_read
  have hsize : (decide ((pack.bytes : Int) < 1) || decide ((pack.bytes : Int) > maxPackBytes)) = false := by
    simp only [Bool.or_eq_false_iff, decide_eq_false_iff_not]
    omega
  have hpositive : decide ((pack.rules : Int) < 1) = false := decide_eq_false (by omega)
  refine bind_ok_iff.mpr ⟨pack.members, rfl, ?_⟩
  refine bind_ok_iff.mpr ⟨(), exactFields_self _ _, ?_⟩
  simp only [hid, hurl, hfile, hsha, hbytes, hcount, hsource, hdigest, hsize, hpositive, okOr_some, ok_bind, bne_self_eq_false,
    Bool.or_self, Bool.not_true, rejectIf_false, Int.toNat_natCast]
  rfl

theorem contains_packIds {id : String} : (packIds packs).contains id = false ↔ id ∉ packIds packs := by
  rw [List.contains_eq_mem, decide_eq_false_iff_not]

theorem normalizeItems_valid {index : Nat} {front : List LockedPack} {items : List Value}
    (h : normalizeItems repr index front items = .ok packs) (hids : (packIds front).Nodup)
    (hfront : ∀ pack ∈ front, pack.Valid) : (packIds packs).Nodup ∧ ∀ pack ∈ packs, pack.Valid := by
  induction items generalizing index front with
  | nil =>
    cases h
    exact ⟨hids, hfront⟩
  | cons item items ih =>
    simp only [normalizeItems, bind_ok_iff, rejectIf_ok_iff, contains_packIds] at h
    obtain ⟨pack, hpack, _, hnew, h⟩ := h
    refine ih h ?_ (List.forall_mem_append.mpr ⟨hfront, List.forall_mem_singleton.mpr (normalizePack_valid hpack)⟩)
    have hconcat := hids.concat hnew
    rw [List.concat_eq_append] at hconcat
    rwa [packIds, List.map_append]

theorem normalizeItems_members {index : Nat} {front : List LockedPack} (hids : (packIds (front ++ packs)).Nodup)
    (hvalid : ∀ pack ∈ packs, pack.Valid) :
    normalizeItems repr index front (packs.map fun pack => .dict pack.members) = .ok (front ++ packs) := by
  induction packs generalizing index front with
  | nil => rw [List.append_nil]; rfl
  | cons pack packs ih =>
    rw [List.forall_mem_cons] at hvalid
    have hcons : front ++ pack :: packs = front ++ [pack] ++ packs := by simp
    have hnew : pack.id ∉ packIds front := by
      rw [packIds, List.map_append, List.nodup_append] at hids
      exact fun hmem => hids.2.2 _ hmem _ List.mem_cons_self rfl
    rw [hcons] at hids ⊢
    refine bind_ok_iff.mpr ⟨pack, normalizePack_members hvalid.1 index, ?_⟩
    simp only [contains_packIds.mpr hnew, rejectIf_false, ok_bind]
    exact ih hids hvalid.2

/-! ## The order of the packs -/

theorem find?_packId {id : String} (h : id ∈ packIds packs) :
    ∃ pack, (packs.find? fun pack => pack.id == id) = some pack ∧ pack.id = id := by
  obtain ⟨pack, hpack, rfl⟩ := List.mem_map.mp h
  have hsome : (packs.find? fun other => other.id == pack.id).isSome := by
    rw [List.find?_isSome]
    exact ⟨pack, hpack, beq_self_eq_true pack.id⟩
  obtain ⟨found, hfound⟩ := Option.isSome_iff_exists.mp hsome
  have hid := List.find?_some hfound
  exact ⟨found, hfound, beq_iff_eq.mp hid⟩

theorem inOrder_ids (h : ∀ spec ∈ packSpecs, spec.1 ∈ packIds packs) : packIds (inOrder packs) = packSpecs.map Prod.fst := by
  unfold inOrder
  generalize packSpecs = specs at h
  induction specs with
  | nil => rfl
  | cons spec specs ih =>
    rw [List.forall_mem_cons] at h
    obtain ⟨pack, hpack, hid⟩ := find?_packId h.1
    simp only [List.filterMap_cons, hpack]
    rw [packIds, List.map_cons, List.map_cons, hid, ← packIds, ih h.2]

theorem mem_of_mem_inOrder (h : pack ∈ inOrder packs) : pack ∈ packs := by
  obtain ⟨spec, -, hfound⟩ := List.mem_filterMap.mp h
  exact List.mem_of_find?_eq_some hfound

/-- Packs that are in order stay as they are. -/
theorem inOrder_self (h : packIds packs = packSpecs.map Prod.fst) : inOrder packs = packs := by
  have hids : (packIds packs).Nodup := by
    rw [h]
    decide
  have hself : ∀ pack ∈ packs, (packs.find? fun other => other.id == pack.id) = some pack := by
    intro pack hpack
    obtain ⟨found, hfound, hid⟩ := find?_packId (List.mem_map_of_mem hpack)
    rw [hfound, List.inj_on_of_nodup_map hids (List.mem_of_find?_eq_some hfound) hpack hid]
  calc inOrder packs = (packSpecs.map Prod.fst).filterMap fun id => packs.find? fun other => other.id == id := by
        rw [List.filterMap_map]
        rfl
    _ = packs.filterMap fun pack => packs.find? fun other => other.id == pack.id := by
        rw [← h, packIds, List.filterMap_map]
        rfl
    _ = packs.filterMap some := List.filterMap_congr hself
    _ = packs := List.filterMap_some

theorem validateManifest_valid (h : validateManifest repr value = .ok manifest) : manifest.Valid := by
  simp only [validateManifest, bind_ok_iff, pure_ok_iff] at h
  obtain ⟨members, -, _, -, _, -, normalized, hpacks, rfl⟩ := h
  cases hitems : (members.lookup "packs").getD .null <;> rw [hitems] at hpacks <;>
    simp only [normalizePacks, bind_ok_iff, rejectIf_ok_iff, pure_ok_iff, reduceCtorEq] at hpacks
  case list items =>
    obtain ⟨_, hnormalized, _, hids, rfl⟩ := hpacks
    obtain ⟨-, hvalid⟩ := normalizeItems_valid hnormalized List.nodup_nil (by simp)
    refine ⟨rfl, inOrder_ids fun spec hspec => ?_, fun pack hpack => hvalid pack (mem_of_mem_inOrder hpack)⟩
    simp only [Bool.not_eq_false', Bool.and_eq_true, List.all_eq_true] at hids
    exact List.contains_iff_mem.mp (hids.2 spec.1 (List.mem_map_of_mem hspec))

/-- A manifest in its form is accepted as itself. -/
theorem validateManifest_toValue (h : manifest.Valid) : validateManifest repr manifest.toValue = .ok manifest := by
  obtain ⟨hheader, hids, hvalid⟩ := h
  have hnodup : (packIds manifest.packs).Nodup := by
    rw [hids]
    decide
  have hnormalized : normalizePacks repr (.list (manifest.packs.map fun pack => .dict pack.members)) = .ok manifest.packs := by
    have hitems : normalizeItems repr 0 [] (manifest.packs.map fun pack => .dict pack.members) = .ok ([] ++ manifest.packs) :=
      normalizeItems_members hnodup hvalid
    rw [List.nil_append] at hitems
    refine bind_ok_iff.mpr ⟨manifest.packs, hitems, ?_⟩
    dsimp only
    rw [hids]
    rfl
  refine bind_ok_iff.mpr ⟨manifest.members, rfl, ?_⟩
  refine bind_ok_iff.mpr ⟨(), exactFields_self _ _, ?_⟩
  refine bind_ok_iff.mpr ⟨(), ?_, ?_⟩
  · rw [hheader]
    rfl
  · refine bind_ok_iff.mpr ⟨manifest.packs, hnormalized, ?_⟩
    rw [inOrder_self hids, ← hheader]
    rfl

end

/-! ## The lock of a pack in a manifest -/

theorem length_digest (bytes : Bytes) : (Sha256.digest bytes).length = 32 := by
  simp [Sha256.digest, Sha256.bigEndian]

theorem validDigest_hexdigest (bytes : Bytes) : validDigest (Sha256.hexdigest bytes) = true := by
  have hlength := length_digest bytes
  simp only [validDigest, Sha256.hexdigest, String.toList_ofList, Bool.and_eq_true, beq_iff_eq, List.all_eq_true]
  refine ⟨?_, fun character hcharacter => ?_⟩
  · simp [List.length_flatMap, hlength]
  · obtain ⟨byte, -, hcharacter⟩ := List.mem_flatMap.mp hcharacter
    simp only [List.mem_cons, List.not_mem_nil, or_false] at hcharacter
    rcases hcharacter with rfl | rfl <;> exact List.contains_iff_mem.mpr (Sha256.hexDigit_mem _)

section
variable {readPack : String → Except PackError Bytes} {pack : LockedPack} {packs refreshed : List LockedPack}

/-- What a content is locked by can stand in a manifest. -/
theorem validatePackContent_valid {packId digest : String} {content : Bytes} {size rules : Nat}
    (h : validatePackContent packId content = .ok (digest, size, rules)) :
    validDigest digest = true ∧ (1 ≤ size ∧ size ≤ maxPackBytes) ∧ 1 ≤ rules := by
  obtain ⟨blanks, read, hlines, -, hne, -, -, hsize, hlock⟩ := validatePackContent_rules h
  cases hlock
  refine ⟨validDigest_hexdigest _, ⟨?_, hsize⟩, ?_⟩
  · refine List.length_pos_iff.mpr ?_
    rintro rfl
    cases hlines
  · rw [List.length_map]
    exact List.length_pos_iff.mpr hne

theorem refreshPacks_cons (pack : LockedPack) (packs : List LockedPack) :
    refreshPacks readPack (pack :: packs) = .ok refreshed ↔
      ∃ content lock rest, readPack pack.file = .ok content ∧ validatePackContent pack.id content = .ok lock ∧
        refreshPacks readPack packs = .ok rest ∧
        refreshed = { pack with canonicalSha256 := lock.1, bytes := lock.2.1, rules := lock.2.2 } :: rest := by
  simp only [refreshPacks, bind_ok_iff, pure_ok_iff]
  constructor
  · rintro ⟨content, hread, lock, hlock, rest, hrest, rfl⟩
    exact ⟨content, lock, rest, hread, hlock, hrest, rfl⟩
  · rintro ⟨content, lock, rest, hread, hlock, hrest, rfl⟩
    exact ⟨content, hread, lock, hlock, rest, hrest, rfl⟩

theorem refreshPacks_valid (h : refreshPacks readPack packs = .ok refreshed) (hvalid : ∀ pack ∈ packs, pack.Valid) :
    packIds refreshed = packIds packs ∧ ∀ pack ∈ refreshed, pack.Valid := by
  induction packs generalizing refreshed with
  | nil =>
    cases h
    exact ⟨rfl, hvalid⟩
  | cons pack packs ih =>
    obtain ⟨content, lock, rest, -, hlock, hrest, rfl⟩ := (refreshPacks_cons pack packs).mp h
    obtain ⟨hpack, hpacks⟩ := List.forall_mem_cons.mp hvalid
    obtain ⟨hids, hrest⟩ := ih hrest hpacks
    obtain ⟨hdigest, hsize, hrules⟩ := validatePackContent_valid hlock
    exact ⟨congrArg (pack.id :: ·) hids, List.forall_mem_cons.mpr ⟨⟨hpack.source, hdigest, hsize, hrules⟩, hrest⟩⟩

/-- The packs stand as they are locked just where there is nothing to refresh. -/
theorem verifyPacks_iff {verified : List String} :
    verifyPacks readPack (packs.map LockedPack.toPack) = .ok verified ↔
      refreshPacks readPack packs = .ok packs ∧ verified = packs.map fun pack => pack.file := by
  induction packs generalizing verified with
  | nil =>
    constructor
    · intro h
      cases h
      exact ⟨rfl, rfl⟩
    · rintro ⟨-, rfl⟩
      rfl
  | cons pack packs ih =>
    rw [refreshPacks_cons, List.map_cons, verifyPacks]
    simp only [bind_ok_iff, rejectIf_ok_iff, pure_ok_iff, ih, Bool.or_eq_false_iff, bne_eq_false_iff_eq, List.map_cons]
    constructor
    · rintro ⟨content, hread, ⟨digest, size, rules⟩, hlock, _, ⟨⟨rfl, rfl⟩, rfl⟩, files, ⟨hrefresh, rfl⟩, rfl⟩
      exact ⟨⟨content, _, packs, hread, hlock, hrefresh, rfl⟩, rfl⟩
    · rintro ⟨⟨content, lock, rest, hread, hlock, hrefresh, hpacks⟩, rfl⟩
      obtain ⟨hpack, rfl⟩ := List.cons.inj hpacks
      have hpinned : lock = (pack.canonicalSha256, pack.bytes, pack.rules) := by rw [hpack]
      subst hpinned
      exact ⟨content, hread, _, hlock, (), ⟨⟨rfl, rfl⟩, rfl⟩, _, ⟨hrefresh, rfl⟩, rfl⟩

/-- What is refreshed is not refreshed again. -/
theorem refreshPacks_again (h : refreshPacks readPack packs = .ok refreshed) :
    refreshPacks readPack refreshed = .ok refreshed := by
  induction packs generalizing refreshed with
  | nil =>
    cases h
    rfl
  | cons pack packs ih =>
    obtain ⟨content, lock, rest, hread, hlock, hrest, rfl⟩ := (refreshPacks_cons pack packs).mp h
    exact (refreshPacks_cons _ rest).mpr ⟨content, lock, rest, hread, hlock, ih hrest, rfl⟩

end

/-! ## The two commands -/

section
variable {repr : Value → String} {readPack : String → Except PackError Bytes} {write : Value → Except PackError Unit}
variable {manifest : Value} {normalized refreshed : Manifest} {done : Done}

theorem refreshManifest_valid (h : refreshManifest repr readPack manifest = .ok refreshed) :
    refreshed.Valid ∧ refreshPacks readPack refreshed.packs = .ok refreshed.packs := by
  obtain ⟨normalized, hnormalized, h⟩ := bind_ok_iff.mp h
  obtain ⟨packs, hpacks, h⟩ := bind_ok_iff.mp h
  cases h
  have hvalid := validateManifest_valid hnormalized
  obtain ⟨hids, hrefreshed⟩ := refreshPacks_valid hpacks hvalid.packs
  refine ⟨⟨?_, hids.trans hvalid.ids, hrefreshed⟩, refreshPacks_again hpacks⟩
  rw [hvalid.header]
  rfl

theorem Manifest.Valid.length_packs (h : normalized.Valid) : normalized.packs.length = 2 := by
  simpa [packIds, packSpecs] using congrArg List.length h.ids

theorem verify_iff : runMain repr readPack write manifest .verify = .ok done ↔
    ∃ normalized, validateManifest repr manifest = .ok normalized ∧
      refreshPacks readPack normalized.packs = .ok normalized.packs ∧
      done = { printed := "Verified 2 Semgrep rule packs", written := none } := by
  simp only [runMain, verifyManifest, bind_ok_iff, pure_ok_iff, verifyPacks_iff]
  constructor
  · rintro ⟨_, ⟨normalized, hnormalized, hrefresh, rfl⟩, rfl⟩
    rw [List.length_map, (validateManifest_valid hnormalized).length_packs]
    exact ⟨normalized, hnormalized, hrefresh, rfl⟩
  · rintro ⟨normalized, hnormalized, hrefresh, rfl⟩
    refine ⟨_, ⟨normalized, hnormalized, hrefresh, rfl⟩, ?_⟩
    rw [List.length_map, (validateManifest_valid hnormalized).length_packs]
    rfl

theorem update_iff_current :
    runMain repr readPack write manifest .update = .ok { printed := "Semgrep rule pack hashes are current", written := none } ↔
      ∃ normalized, validateManifest repr manifest = .ok normalized ∧
        refreshPacks readPack normalized.packs = .ok normalized.packs := by
  simp only [runMain, refreshManifest, bind_ok_iff, pure_ok_iff]
  constructor
  · rintro ⟨refreshed, ⟨normalized, hnormalized, packs, hpacks, rfl⟩, normalized', hnormalized', h⟩
    cases hnormalized.symm.trans hnormalized'
    by_cases hsame : ({ normalized with packs := packs } : Manifest) = normalized
    · have hcurrent : packs = normalized.packs := congrArg Manifest.packs hsame
      exact ⟨normalized, hnormalized, hcurrent ▸ hpacks⟩
    · rw [if_neg hsame] at h
      obtain ⟨_, -, h⟩ := bind_ok_iff.mp h
      exact absurd (congrArg Done.written (pure_ok_iff.mp h)) (by simp)
  · rintro ⟨normalized, hnormalized, hrefresh⟩
    exact ⟨normalized, ⟨normalized, hnormalized, _, hrefresh, rfl⟩, normalized, hnormalized, if_pos rfl⟩

theorem update_writes {packs : List LockedPack} (hvalid : normalized.Valid)
    (hrefresh : refreshPacks readPack normalized.packs = .ok packs) (hchanged : packs ≠ normalized.packs)
    (hwrite : write ({ normalized with packs := packs } : Manifest).toValue = .ok ()) :
    runMain repr readPack write normalized.toValue .update =
      .ok { printed := "Updated Semgrep rule pack hashes", written := some ({ normalized with packs := packs } : Manifest).toValue } := by
  have hnormalized : validateManifest repr normalized.toValue = .ok normalized := validateManifest_toValue hvalid
  have hne : ({ normalized with packs := packs } : Manifest) ≠ normalized := fun h => hchanged (congrArg Manifest.packs h)
  simp only [runMain, refreshManifest, bind_ok_iff, pure_ok_iff]
  refine ⟨_, ⟨normalized, hnormalized, packs, hrefresh, rfl⟩, normalized, hnormalized, ?_⟩
  rw [if_neg hne, hwrite]
  rfl

theorem update_ok (h : runMain repr readPack write manifest .update = .ok done) :
    ∃ normalized, validateManifest repr (done.written.getD manifest) = .ok normalized ∧
      refreshPacks readPack normalized.packs = .ok normalized.packs := by
  simp only [runMain, bind_ok_iff] at h
  obtain ⟨refreshed, hrefreshed, normalized, hnormalized, h⟩ := h
  obtain ⟨hvalid, hcurrent⟩ := refreshManifest_valid hrefreshed
  split at h
  case isTrue hsame =>
    cases h
    exact ⟨normalized, hnormalized, hsame ▸ hcurrent⟩
  case isFalse =>
    obtain ⟨_, -, h⟩ := bind_ok_iff.mp h
    cases h
    exact ⟨refreshed, validateManifest_toValue hvalid, hcurrent⟩

end

/-- The packs stand as the manifest has them just where an update finds nothing to write. -/
theorem verify_iff_current (repr : Value → String) (readPack : String → Except PackError Bytes)
    (write : Value → Except PackError Unit) (manifest : Value) :
    (∃ done, runMain repr readPack write manifest .verify = .ok done) ↔
      runMain repr readPack write manifest .update =
        .ok { printed := "Semgrep rule pack hashes are current", written := none } := by
  simp only [update_iff_current, verify_iff]
  constructor
  · rintro ⟨_, normalized, hnormalized, hrefresh, -⟩
    exact ⟨normalized, hnormalized, hrefresh⟩
  · rintro ⟨normalized, hnormalized, hrefresh⟩
    exact ⟨_, normalized, hnormalized, hrefresh, rfl⟩

/-- The manifest that an update leaves is verified by the packs it was made from, and left as it is by the next. -/
theorem update_verifies {repr : Value → String} {readPack : String → Except PackError Bytes}
    {write : Value → Except PackError Unit} {manifest : Value} {done : Done}
    (h : runMain repr readPack write manifest .update = .ok done) :
    runMain repr readPack write (done.written.getD manifest) .verify =
        .ok { printed := "Verified 2 Semgrep rule packs", written := none } ∧
      runMain repr readPack write (done.written.getD manifest) .update =
        .ok { printed := "Semgrep rule pack hashes are current", written := none } := by
  obtain ⟨normalized, hnormalized, hrefresh⟩ := update_ok h
  exact ⟨verify_iff.mpr ⟨normalized, hnormalized, hrefresh, rfl⟩, update_iff_current.mpr ⟨normalized, hnormalized, hrefresh⟩⟩

/-- A pack of the manifest, as it is locked. -/
def samplePack (spec : String × PackSpec) (digest : String) (bytes rules : Nat) : LockedPack where
  id := spec.1
  url := spec.2.url
  file := spec.2.file
  canonicalSha256 := digest
  bytes := bytes
  rules := rules

def sampleManifest : Manifest :=
  manifestOf (packSpecs.map fun spec => samplePack spec "ba7816bf8f01cfea414140de5dae2223b00361a396177a9cb410ff61f20015ad" 3 1)

theorem sampleManifest_valid : sampleManifest.Valid := by
  refine ⟨rfl, by decide, fun pack hpack => ?_⟩
  obtain ⟨spec, hspec, rfl⟩ := List.mem_map.mp hpack
  simp only [packSpecs, List.mem_cons, List.not_mem_nil, or_false] at hspec
  rcases hspec with rfl | rfl <;> exact ⟨by decide, by decide, by decide, by decide⟩

def sampleBlocks : List (Bytes × Bytes) := [(utf8 "b", utf8 "- id: b\n  x: 1\n"), (utf8 "a", utf8 "- id: a\n")]

theorem validatePackContent_sample (packId : String)
    (h : parseRuleBlocks packId (utf8 "rules:\n- id: b\n  x: 1\n- id: a\n") = .ok sampleBlocks) :
    validatePackContent packId (utf8 "rules:\n- id: b\n  x: 1\n- id: a\n") =
      .ok (Sha256.hexdigest (canonicalForm sampleBlocks), 30, 2) :=
  validatePackContent_parsed (by decide +kernel) (by decide +kernel) h (by decide +kernel)

/-- A pack of two rules is there for each, where the manifest has packs of one. -/
theorem update_verifies_sample :
    let readPack := fun _ : String => (.ok (utf8 "rules:\n- id: b\n  x: 1\n- id: a\n") : Except PackError Bytes)
    let run := runMain (fun _ => "?") readPack (fun _ => .ok ())
    ∃ done, run sampleManifest.toValue .update = .ok done ∧ done.printed = "Updated Semgrep rule pack hashes" ∧
      run (done.written.getD sampleManifest.toValue) .verify =
        .ok { printed := "Verified 2 Semgrep rule packs", written := none } := by
  intro readPack run
  have hrefresh : refreshPacks readPack sampleManifest.packs = .ok (packSpecs.map fun spec =>
      samplePack spec (Sha256.hexdigest (canonicalForm sampleBlocks)) 30 2) := by
    refine (refreshPacks_cons _ _).mpr ⟨_, _, _, rfl, validatePackContent_sample _ (by decide +kernel), ?_, rfl⟩
    exact (refreshPacks_cons _ _).mpr ⟨_, _, _, rfl, validatePackContent_sample _ (by decide +kernel), rfl, rfl⟩
  have hchanged : (packSpecs.map fun spec => samplePack spec (Sha256.hexdigest (canonicalForm sampleBlocks)) 30 2) ≠
      sampleManifest.packs := by
    intro h
    cases congrArg (List.map fun pack => pack.rules) h
  have hupdate : run sampleManifest.toValue .update = _ := update_writes sampleManifest_valid hrefresh hchanged rfl
  exact ⟨_, hupdate, rfl, (update_verifies hupdate).1⟩

end AgentHarness.Scripts
