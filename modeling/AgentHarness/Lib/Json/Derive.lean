/-
Records and enumerations in JSON, as derived readers and writers have them:
a record is an object of its fields, or read from an array of them in
order; a field that may be absent is null; an enumeration of names is a
string; a tagged union is an object with the tag among its members.
-/
import AgentHarness.Lib.Json.Value

namespace Json

/-! ## Records -/

/-- What is done with a member that is no field. -/
inductive UnknownFields where
  | ignored
  | denied
  deriving DecidableEq, Repr

/-- The values of the named fields: of an object by name, none of them
twice; of an array in order, all of them and no more. -/
def fields (unknown : UnknownFields) (names : List String) : Json → Option (List (Option Json))
  | .obj ms =>
    let known := (ms.map Prod.fst).filter (names.contains ·)
    if known.Nodup ∧ (unknown = .denied → known.length = ms.length) then some (names.map (ms.lookup ·)) else none
  | .arr vs => if vs.length = names.length then some (vs.map some) else none
  | _ => none

/-- A field that has to be there. -/
def required {α : Type} (read : Json → Option α) (field : Option Json) : Option α := field.bind read

/-- A field that may be absent or null. -/
def optional {α : Type} (read : Json → Option α) : Option Json → Option (Option α)
  | none | some .null => some none
  | some v => (read v).map some

/-- How a field that may be absent is written. -/
def ofOption {α : Type} (write : α → Json) : Option α → Json
  | none => .null
  | some a => write a

def asU8 (v : Json) : Option UInt8 := do
  let n ← v.asU64
  if n < 256 then some n.toUInt8 else none

/-- An integer that a signed word holds. -/
def asI64 : Json → Option Int64
  | .num (.posInt n) => if n.toNat < 0x8000000000000000 then some (Int64.ofNat n.toNat) else none
  | .num (.negInt magnitude) => some (Int64.ofInt (-magnitude.toNat))
  | _ => none

def ofU64 (n : UInt64) : Json := .num (.posInt n)
def ofU8 (n : UInt8) : Json := ofU64 n.toUInt64

@[simp] theorem asStr_str (s : String) : asStr (.str s) = some s := rfl
@[simp] theorem asU64_ofU64 (n : UInt64) : asU64 (ofU64 n) = some n := rfl

@[simp] theorem asU8_ofU8 (n : UInt8) : asU8 (ofU8 n) = some n := by
  have hlt : n.toUInt64 < 256 := UInt64.lt_iff_toNat_lt.mpr (by simpa using n.toNat_lt)
  have hn : n.toUInt64.toUInt8 = n := by simp
  simp only [asU8, ofU8, asU64_ofU64, Option.bind_eq_bind, Option.bind_some, if_pos hlt, hn]

@[simp] theorem required_some {α : Type} (read : Json → Option α) (v : Json) : required read (some v) = read v := rfl

theorem optional_ofOption {α : Type} (read : Json → Option α) (write : α → Json)
    (hread : ∀ a, read (write a) = some a) (hnull : ∀ a, write a ≠ .null) (x : Option α) :
    optional read (some (ofOption write x)) = some x := by
  cases x with
  | none => rfl
  | some a =>
    have ha := hread a
    have hn := hnull a
    rw [ofOption]
    generalize write a = v at ha hn
    cases v with
    | null => exact absurd rfl hn
    | _ => simp only [optional, ha, Option.map_some]

@[simp] theorem optional_str (x : Option String) : optional asStr (some (ofOption .str x)) = some x :=
  optional_ofOption asStr .str (fun _ => rfl) (fun _ h => nomatch h) x

@[simp] theorem optional_u64 (x : Option UInt64) : optional asU64 (some (ofOption ofU64 x)) = some x :=
  optional_ofOption asU64 ofU64 (fun _ => rfl) (fun _ h => nomatch h) x

theorem lookup_of_mem {ms : List (String × Json)} (hn : (ms.map Prod.fst).Nodup) {m : String × Json} (hm : m ∈ ms) :
    ms.lookup m.1 = some m.2 := by
  induction ms with
  | nil => exact nomatch hm
  | cons m' ms ih =>
    obtain ⟨hm', hms⟩ := List.nodup_cons.mp hn
    rcases List.mem_cons.mp hm with rfl | htail
    · exact List.lookup_cons_self
    · have hne : m.1 ≠ m'.1 := fun h => hm' (h ▸ List.mem_map_of_mem htail)
      obtain ⟨k, v⟩ := m'
      simp only [List.lookup_cons, beq_eq_false_iff_ne.mpr hne]
      exact ih hms htail

/-- An object of just the fields, in order. -/
def ofFields (names : List String) (values : List Json) : Json := .obj (names.zip values)

/-- **What is written of a record's fields is read back.** -/
theorem fields_ofFields {unknown : UnknownFields} {names : List String} {values : List Json} (hn : names.Nodup)
    (hl : names.length = values.length) : (ofFields names values).fields unknown names = some (values.map some) := by
  have hfst : (names.zip values).map Prod.fst = names := List.map_fst_zip (Nat.le_of_eq hl)
  have hsnd : (names.zip values).map Prod.snd = values := List.map_snd_zip (Nat.le_of_eq hl.symm)
  have hknown : names.filter (names.contains ·) = names := List.filter_eq_self.mpr fun a ha => by simpa using ha
  have hlookup : names.map ((names.zip values).lookup ·) = values.map some := by
    have hz : ∀ m ∈ names.zip values, (names.zip values).lookup m.1 = some m.2 := fun m hm =>
      lookup_of_mem (hfst.symm ▸ hn) hm
    calc names.map ((names.zip values).lookup ·)
        = (names.zip values).map fun m => (names.zip values).lookup m.1 := by
          conv_lhs => rw [← hfst]
          rw [List.map_map, hfst]; rfl
      _ = (names.zip values).map fun m => some m.2 := List.map_congr_left hz
      _ = values.map some := by
          conv_rhs => rw [← hsnd]
          rw [List.map_map]; rfl
  simp only [fields, ofFields, hfst, hknown, hn, hlookup, List.length_zip, true_and, hl, Nat.min_self, implies_true,
    if_true]

/-! ## Enumerations and unions -/

/-- A name: a string, or an object whose one member is the name with
nothing in it. -/
def unitVariant : Json → Option String
  | .str name => some name
  | .obj [(name, .null)] | .obj [(name, .obj [])] => some name
  | _ => none

@[simp] theorem unitVariant_str (name : String) : unitVariant (.str name) = some name := rfl

/-- A tagged union's tag and what is left without it. The tag is a member
of its object, not twice, or the first of its array. -/
def tagged (tag : String) : Json → Option (Json × Json)
  | .obj ms =>
    match ms.filter (·.1 == tag) with
    | [(_, t)] => some (t, .obj (ms.filter (·.1 != tag)))
    | _ => none
  | .arr (t :: vs) => some (t, .arr vs)
  | _ => none

theorem tagged_obj {tag : String} {t : Json} {ms : List (String × Json)} (h : tag ∉ ms.map Prod.fst) :
    tagged tag (.obj ((tag, t) :: ms)) = some (t, .obj ms) := by
  have hne : ∀ m ∈ ms, m.1 ≠ tag := fun m hm he => h (he ▸ List.mem_map_of_mem hm)
  have h₁ : ms.filter (·.1 == tag) = [] := List.filter_eq_nil_iff.mpr fun m hm => by simpa using hne m hm
  have h₂ : ms.filter (·.1 != tag) = ms := List.filter_eq_self.mpr fun m hm => by simpa using hne m hm
  simp [tagged, h₁, h₂]

/-- A tagged union's variant: the tag before the fields. -/
def ofTagged (tag variant : String) (names : List String) (values : List Json) : Json :=
  .obj ((tag, .str variant) :: names.zip values)

/-- **What is written of a variant is read back**: its tag, then its fields. -/
theorem ofTagged_readBack (tag variant : String) (unknown : UnknownFields) (names : List String) (values : List Json)
    (hn : (tag :: names).Nodup) (hl : names.length = values.length) :
    tagged tag (ofTagged tag variant names values) = some (.str variant, ofFields names values) ∧
      (ofFields names values).fields unknown names = some (values.map some) := by
  obtain ⟨htag, hnames⟩ := List.nodup_cons.mp hn
  refine ⟨tagged_obj fun hm => htag ?_, fields_ofFields hnames hl⟩
  obtain ⟨m, hz, he⟩ := List.mem_map.mp hm
  exact he ▸ (List.of_mem_zip hz).1

end Json
