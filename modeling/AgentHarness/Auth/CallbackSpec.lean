/-
What the callback accepts, said of the request as a whole: its target, the
bytes of its query and the values of its parameters (`validateRequest_iff`),
and so which requests the wait ends with (`wait_ignores_strangers`).
-/
import Mathlib.Data.List.TakeDrop
import AgentHarness.Auth.Callback

namespace AgentHarness.Auth.Callback

open Text

/-! ## The query -/

/-- The byte of two digits, put together by shifting or by adding. -/
theorem shift_or_eq {high low : UInt8} (hhigh : high < 16) (hlow : low < 16) : (high <<< 4) ||| low = high * 16 + low := by
  have hall : ∀ a b : Fin 16, (UInt8.ofNat a.val <<< 4) ||| UInt8.ofNat b.val = UInt8.ofNat a.val * 16 + UInt8.ofNat b.val := by
    decide
  have h := hall ⟨high.toNat, hhigh⟩ ⟨low.toNat, hlow⟩
  simpa using h

/-- What an escape at an index is followed by. -/
theorem escape_digits {bytes : Bytes} {index : Nat} (hlt : index < bytes.length) (hpercent : bytes[index] = Form.percent)
    (h : Form.Escaped (bytes.drop index)) :
    (bytes[index + 1]?.bind hexValue).isSome = true ∧ (bytes[index + 2]?.bind hexValue).isSome = true := by
  have hhead : (bytes.drop index)[0]? = some Form.percent := by
    rw [List.getElem?_drop, Nat.add_zero, List.getElem?_eq_getElem hlt, hpercent]
  obtain ⟨⟨high, hhigh, hs⟩, low, hlow, hs'⟩ := h 0 hhead
  rw [List.getElem?_drop] at hhigh hlow
  rw [hhigh, hlow]
  exact ⟨hs, hs'⟩

/-- The loop over some bytes that are left decodes them, when each is ASCII and every escape is one. -/
theorem decodeFrom_eq_some_iff {bytes decoded out : Bytes} {index : Nat} : decodeFrom bytes index decoded = some out ↔
    (∀ b ∈ bytes.drop index, b < 0x80) ∧ Form.Escaped (bytes.drop index) ∧
      out = decoded ++ Form.percentDecode (bytes.drop index) := by
  fun_induction decodeFrom bytes index decoded with
  | case1 index decoded hlt hpercent hnone =>
    constructor
    · intro h
      cases h
    · intro h
      have hsome := (escape_digits hlt hpercent h.2.1).1
      rw [hnone] at hsome
      cases hsome
  | case2 index decoded hlt hpercent high hhigh hnone =>
    constructor
    · intro h
      cases h
    · intro h
      have hsome := (escape_digits hlt hpercent h.2.1).2
      rw [hnone] at hsome
      cases hsome
  | case3 index decoded hlt hpercent high hhigh low hlow ih =>
    obtain ⟨b, hb, hbdigit⟩ := Option.bind_eq_some_iff.mp hhigh
    obtain ⟨c, hc, hcdigit⟩ := Option.bind_eq_some_iff.mp hlow
    obtain ⟨hblt, hb⟩ := List.getElem?_eq_some_iff.mp hb
    obtain ⟨hclt, hc⟩ := List.getElem?_eq_some_iff.mp hc
    obtain ⟨hbascii, hhigh16⟩ := Form.hexDigit?_lt hbdigit
    obtain ⟨hcascii, hlow16⟩ := Form.hexDigit?_lt hcdigit
    have hdrop : bytes.drop index = Form.percent :: b :: c :: bytes.drop (index + 3) := by
      rw [List.drop_eq_getElem_cons hlt, List.drop_eq_getElem_cons hblt, List.drop_eq_getElem_cons hclt, hpercent, hb, hc]
    have hpascii : Form.percent < 0x80 := by decide
    rw [ih, hdrop, Form.escaped_escape hbdigit hcdigit, Form.percentDecode_escape hbdigit hcdigit,
      shift_or_eq hhigh16 hlow16, List.append_assoc]
    simp only [List.mem_cons, forall_eq_or_imp, hpascii, hbascii, hcascii, true_and]
    rfl
  | case4 index decoded hlt hpercent hascii ih =>
    rw [ih, List.drop_eq_getElem_cons hlt, Form.escaped_byte hpercent, Form.percentDecode_byte hpercent, List.append_assoc]
    simp only [List.mem_cons, forall_eq_or_imp, hascii, true_and]
    rfl
  | case5 index decoded hlt hpercent hascii =>
    constructor
    · intro h
      cases h
    · intro h
      refine absurd (h.1 bytes[index] ?_) hascii
      rw [List.drop_eq_getElem_cons hlt]
      exact List.mem_cons_self
  | case6 index decoded hlt =>
    have hdrop : bytes.drop index = [] := List.drop_eq_nil_of_le (Nat.not_lt.mp hlt)
    rw [hdrop]
    simp [Form.escaped_nil, Form.percentDecode, eq_comm]

theorem queryIsWellFormed_iff {query : String} : queryIsWellFormed query = true ↔
    (∀ b ∈ utf8 query, b < 0x80) ∧ Form.Escaped (utf8 query) ∧ (ofUtf8? (Form.percentDecode (utf8 query))).isSome = true := by
  unfold queryIsWellFormed
  cases hdecoded : decodeFrom (utf8 query) 0 [] with
  | none =>
    constructor
    · intro h
      cases h
    · intro h
      obtain ⟨hascii, hescaped, -⟩ := h
      have hsome : decodeFrom (utf8 query) 0 [] = some (Form.percentDecode (utf8 query)) :=
        decodeFrom_eq_some_iff.mpr ⟨hascii, hescaped, rfl⟩
      rw [hdecoded] at hsome
      cases hsome
  | some decoded =>
    obtain ⟨hascii, hescaped, rfl⟩ := decodeFrom_eq_some_iff.mp hdecoded
    constructor
    · intro h
      exact ⟨hascii, hescaped, h⟩
    · intro h
      exact h.2.2

/-! ## The parameters -/

theorem toList_inj {a b : Option String} : a.toList = b.toList ↔ a = b := by
  cases a <;> cases b <;> simp

/-- An option holds no two values. -/
theorem append_cons_eq_toList {slot o : Option String} {value : String} {values : List String} :
    slot.toList ++ value :: values = o.toList ↔ slot = none ∧ (some value).toList ++ values = o.toList := by
  cases slot <;> cases o <;> simp

/-- Nothing follows a slot that is filled again. -/
theorem bind_fill_eq_some_iff {slot : Option String} {value : String} {put : Option String → Slots}
    {next : Slots → Option Slots} {slots : Slots} :
    ((fill slot value).map put >>= next) = some slots ↔ slot = none ∧ next (put (some value)) = some slots := by
  cases slot <;> simp [fill]

theorem place_state (slots : Slots) (value : String) :
    slots.place ("state", value) = (fill slots.state value).map fun state => { slots with state } := rfl

theorem place_code (slots : Slots) (value : String) :
    slots.place ("code", value) = (fill slots.code value).map fun code => { slots with code } := rfl

theorem place_error (slots : Slots) (value : String) :
    slots.place ("error", value) = (fill slots.error value).map fun error => { slots with error } := rfl

/-- The loop over the pairs comes to its end when no parameter is there twice, with the values there are. -/
theorem foldlM_place_eq_some_iff {pairs : List (String × String)} {slots slots' : Slots} :
    pairs.foldlM Slots.place slots = some slots' ↔
      slots.state.toList ++ Form.values pairs "state" = slots'.state.toList ∧
      slots.code.toList ++ Form.values pairs "code" = slots'.code.toList ∧
      slots.error.toList ++ Form.values pairs "error" = slots'.error.toList := by
  induction pairs generalizing slots with
  | nil =>
    obtain ⟨state, code, error⟩ := slots
    obtain ⟨state', code', error'⟩ := slots'
    simp [toList_inj]
  | cons pair pairs ih =>
    obtain ⟨name, value⟩ := pair
    rw [List.foldlM_cons]
    by_cases hstate : name = "state"
    · subst hstate
      rw [place_state, bind_fill_eq_some_iff, ih, Form.values_cons_self, Form.values_cons_other (by decide),
        Form.values_cons_other (by decide), append_cons_eq_toList, and_assoc]
    by_cases hcode : name = "code"
    · subst hcode
      rw [place_code, bind_fill_eq_some_iff, ih, Form.values_cons_other (by decide), Form.values_cons_self,
        Form.values_cons_other (by decide), append_cons_eq_toList, and_assoc, and_left_comm]
    by_cases herror : name = "error"
    · subst herror
      rw [place_error, bind_fill_eq_some_iff, ih, Form.values_cons_other (by decide), Form.values_cons_other (by decide),
        Form.values_cons_self, append_cons_eq_toList, and_left_comm, and_left_comm (a := slots.error = none)]
    have hplace : slots.place (name, value) = some slots := by
      unfold Slots.place
      split
      all_goals first | rfl | contradiction
    rw [Form.values_cons_other hstate, Form.values_cons_other hcode, Form.values_cons_other herror, hplace, ← ih]
    rfl

theorem foldlM_place_empty {pairs : List (String × String)} {slots : Slots} :
    pairs.foldlM Slots.place .empty = some slots ↔ Form.values pairs "state" = slots.state.toList ∧
      Form.values pairs "code" = slots.code.toList ∧ Form.values pairs "error" = slots.error.toList := by
  rw [foldlM_place_eq_some_iff]
  simp only [Slots.empty, Option.toList_none, List.nil_append]

/-! ## The state -/

theorem acceptedState_iff {candidate expected : String} :
    acceptedState candidate expected = true ↔ candidate = expected ∨ candidate = expected ++ acceptedStateSuffix := by
  have happend : candidate = expected ++ acceptedStateSuffix ↔
      expected.toList <+: candidate.toList ∧ candidate.toList.drop expected.toList.length = acceptedStateSuffix.toList := by
    rw [← String.toList_inj, String.toList_append]
    constructor
    · intro h
      rw [h]
      exact ⟨List.prefix_append _ _, List.drop_left⟩
    · intro h
      obtain ⟨⟨rest, hrest⟩, hdrop⟩ := h
      rw [← hrest, List.drop_left] at hdrop
      rw [← hrest, hdrop]
  rw [happend]
  simp [acceptedState]

theorem errorOutcome_eq (error : String) : errorOutcome error =
    if error = "access_denied" then .denied
    else if error = "server_error" ∨ error = "temporarily_unavailable" then .authorizationTemporarilyUnavailable
    else .authorizationFailed := by
  unfold errorOutcome
  split
  · rfl
  · rfl
  · rfl
  · rename_i hdenied hserver htemporary
    rw [if_neg hdenied, if_neg]
    intro h
    obtain h | h := h
    · exact hserver h
    · exact htemporary h

/-! ## Requests -/

/-- The bytes of the query, which is what comes after the first `?`. -/
def Request.query (r : Request) : Bytes := utf8 (String.ofList (r.url.toList.dropWhile (· ≠ '?')).tail)

/-- The decoded values a parameter has. -/
def Request.values (r : Request) (name : String) : List String := Form.values (Form.parse r.query) name

/-- The one state there is, is the one that is expected or that with the suffix. -/
def Request.Knows (r : Request) (expectedState : String) : Prop :=
  ∃ state, r.values "state" = [state] ∧ (state = expectedState ∨ state = expectedState ++ acceptedStateSuffix)

/-- What a request has to be, whatever it answers. -/
structure Request.Valid (r : Request) (expectedState : String) : Prop where
  method : r.method = .get
  size : r.url.utf8ByteSize ≤ 8192
  path : r.url.toList.takeWhile (· ≠ '?') = "/auth/callback".toList
  ascii : ∀ b ∈ r.query, b < 0x80
  escaped : Form.Escaped r.query
  utf8 : (ofUtf8? (Form.percentDecode r.query)).isSome = true
  knows : r.Knows expectedState

/-- A text that is not empty and has no control characters. -/
def Safe (value : String) : Prop := value ≠ "" ∧ ∀ c ∈ value.toList, isControl c = false

theorem isSafeCallbackValue_iff {value : String} : isSafeCallbackValue value = true ↔ Safe value := by
  simp [isSafeCallbackValue, Safe]

theorem splitTarget_eq (target : String) : splitTarget target =
    (String.ofList (target.toList.takeWhile (· ≠ '?')), String.ofList (target.toList.dropWhile (· ≠ '?')).tail) := by
  unfold splitTarget
  rw [List.span_eq_takeWhile_dropWhile]
  split
  · rename_i path hspan
    obtain ⟨hpath, hrest⟩ := Prod.mk.inj hspan
    have hall := List.takeWhile_append_dropWhile (p := fun c => decide (c ≠ '?')) (l := target.toList)
    rw [hrest, List.append_nil] at hall
    rw [hrest, hall, String.ofList_toList]
    rfl
  · rename_i path x query hspan
    obtain ⟨hpath, hrest⟩ := Prod.mk.inj hspan
    rw [hrest, hpath]
    rfl

/-- What the parameters come to. -/
def conclude (codes errors : List String) : RequestOutcome :=
  match codes, errors with
  | [code], [] => answer (some code) none
  | [], [error] => answer none (some error)
  | _, _ => .invalid

section
variable {request : Request} {expected : String}

theorem validateRequest_oversized (hmethod : request.method = .get) (hsize : 8192 < request.url.utf8ByteSize) :
    validateRequest request expected = .oversized := by
  have hlarge : request.url.utf8ByteSize > maxRequestTargetBytes := hsize
  unfold validateRequest
  rw [if_neg (by simp [hmethod]), if_pos hlarge]

theorem answer_eq (code error : Option String) : answer code error = conclude code.toList error.toList := by
  cases code <;> cases error <;> rfl

/-- Parameters that are there at most once are all that is answered. -/
theorem conclude_of_none {state : String} {pairs : List (String × String)} (hstate : Form.values pairs "state" = [state])
    (hnone : pairs.foldlM Slots.place .empty = none) :
    conclude (Form.values pairs "code") (Form.values pairs "error") = .invalid := by
  have hsome : ∀ code error : Option String, Form.values pairs "code" = code.toList → Form.values pairs "error" ≠ error.toList := by
    intro code error hcode herror
    have hplaced : pairs.foldlM Slots.place .empty = some ⟨some state, code, error⟩ :=
      foldlM_place_empty.mpr ⟨hstate, hcode, herror⟩
    rw [hnone] at hplaced
    cases hplaced
  unfold conclude
  split
  · rename_i code hcode herror
    exact absurd herror (hsome (some code) none hcode)
  · rename_i error hcode herror
    exact absurd herror (hsome none (some error) hcode)
  · rfl

theorem validateRequest_valid (hne : expected ≠ "") (h : request.Valid expected) :
    validateRequest request expected = conclude (request.values "code") (request.values "error") := by
  obtain ⟨state, hstate, haccepted⟩ := h.knows
  have hsize : ¬ request.url.utf8ByteSize > maxRequestTargetBytes := Nat.not_lt.mpr h.size
  have hpath : String.ofList (request.url.toList.takeWhile (· ≠ '?')) = callbackPath := by
    rw [h.path, String.ofList_toList]
    rfl
  have hquery : queryIsWellFormed (String.ofList (request.url.toList.dropWhile (· ≠ '?')).tail) = true :=
    queryIsWellFormed_iff.mpr ⟨h.ascii, h.escaped, h.utf8⟩
  have hnonempty : state ≠ "" := by
    obtain rfl | rfl := haccepted
    · exact hne
    · intro hempty
      exact hne (String.append_eq_empty_iff.mp hempty).1
  unfold validateRequest
  rw [if_neg (not_not.mpr h.method), if_neg hsize, splitTarget_eq]
  dsimp only
  have hparsed : utf8 (String.ofList (request.url.toList.dropWhile (· ≠ '?')).tail) = request.query := rfl
  rw [if_neg (not_not.mpr hpath), hquery, hparsed]
  cases hplaced : (Form.parse request.query).foldlM Slots.place .empty with
  | none => exact (conclude_of_none hstate hplaced).symm
  | some slots =>
    obtain ⟨hs, hc, he⟩ := foldlM_place_empty.mp hplaced
    have hslot : slots.state = some state := by
      have hlist : [state] = slots.state.toList := hstate.symm.trans hs
      cases hx : slots.state with
      | none =>
        rw [hx] at hlist
        cases hlist
      | some x =>
        rw [hx] at hlist
        cases hlist
        rfl
    have hfilter : (some state).filter (!·.isEmpty) = some state := by
      simp [Option.filter, hnonempty]
    have hcodes : request.values "code" = slots.code.toList := hc
    have herrors : request.values "error" = slots.error.toList := he
    dsimp only
    rw [hslot, hfilter, hcodes, herrors, ← answer_eq]
    dsimp only
    rw [acceptedState_iff.mpr haccepted]
    rfl

theorem validateRequest_invalid (h : ¬ request.Valid expected)
    (hsize : request.method = .get → request.url.utf8ByteSize ≤ 8192) : validateRequest request expected = .invalid := by
  unfold validateRequest
  split
  · rfl
  rename_i hmethod
  have hmethod : request.method = .get := not_not.mp hmethod
  have hsmall : ¬ request.url.utf8ByteSize > maxRequestTargetBytes := Nat.not_lt.mpr (hsize hmethod)
  rw [if_neg hsmall, splitTarget_eq]
  dsimp only
  split
  · rfl
  rename_i hpath
  split
  · rfl
  rename_i hquery
  split
  · rfl
  rename_i slots hplaced
  split
  · rfl
  rename_i state hstate
  split
  · rfl
  rename_i haccepted
  refine absurd ?_ h
  have hformed : queryIsWellFormed (String.ofList (request.url.toList.dropWhile (· ≠ '?')).tail) = true := by
    rw [← Bool.not_eq_false]
    intro hfalse
    rw [hfalse] at hquery
    exact hquery rfl
  obtain ⟨hascii, hescaped, hutf8⟩ := queryIsWellFormed_iff.mp hformed
  obtain ⟨hs, -, -⟩ := foldlM_place_empty.mp hplaced
  obtain ⟨hslot, -⟩ := Option.filter_eq_some_iff.mp hstate
  have hpath := not_not.mp hpath
  refine ⟨hmethod, hsize hmethod, ?_, hascii, hescaped, hutf8, state, ?_, acceptedState_iff.mp (by simpa using haccepted)⟩
  · have htake := congrArg String.toList hpath
    rw [String.toList_ofList] at htake
    exact htake
  · rw [hslot] at hs
    exact hs

theorem conclude_code (code : String) : conclude [code] [] = if isSafeCallbackValue code then .code code else .invalid := rfl

theorem conclude_error (error : String) :
    conclude [] [error] = if isSafeCallbackValue error then errorOutcome error else .invalid := rfl

theorem errorOutcome_ne (error : String) :
    errorOutcome error ≠ .invalid ∧ errorOutcome error ≠ .oversized ∧ ∀ c, errorOutcome error ≠ .code c := by
  rw [errorOutcome_eq]
  split
  · simp
  · split <;> simp

/-- Either there is one code and no error, or one error and no code, or there is no answer. -/
theorem conclude_cases (codes errors : List String) :
    (∃ c, codes = [c] ∧ errors = []) ∨ (∃ e, codes = [] ∧ errors = [e]) ∨
      (conclude codes errors = .invalid ∧ (∀ c, ¬(codes = [c] ∧ errors = [])) ∧ ∀ e, ¬(codes = [] ∧ errors = [e])) := by
  match codes, errors with
  | [], [] => exact .inr (.inr ⟨rfl, by simp, by simp⟩)
  | [], [e] => exact .inr (.inl ⟨e, rfl, rfl⟩)
  | [], _ :: _ :: _ => exact .inr (.inr ⟨rfl, by simp, by simp⟩)
  | [c], [] => exact .inl ⟨c, rfl, rfl⟩
  | [_], _ :: _ => exact .inr (.inr ⟨rfl, by simp, by simp⟩)
  | _ :: _ :: _, _ => exact .inr (.inr ⟨rfl, by simp, by simp⟩)

theorem conclude_eq_code_iff {codes errors : List String} {c : String} :
    conclude codes errors = .code c ↔ codes = [c] ∧ errors = [] ∧ Safe c := by
  obtain ⟨c', rfl, rfl⟩ | ⟨e, rfl, rfl⟩ | ⟨hinvalid, hcode, -⟩ := conclude_cases codes errors
  · rw [conclude_code, ← isSafeCallbackValue_iff]
    by_cases hsafe : isSafeCallbackValue c' = true
    · rw [if_pos hsafe]
      constructor
      · intro h
        cases h
        exact ⟨rfl, rfl, hsafe⟩
      · intro h
        cases h.1
        rfl
    · rw [if_neg hsafe]
      constructor
      · intro h
        cases h
      · intro h
        cases h.1
        exact absurd h.2.2 hsafe
  · have hne := (errorOutcome_ne e).2.2 c
    rw [conclude_error]
    split
    · simp [hne]
    · simp
  · rw [hinvalid]
    constructor
    · intro h
      cases h
    · intro h
      exact absurd ⟨h.1, h.2.1⟩ (hcode c)

theorem conclude_eq_error_iff {codes errors : List String} {outcome : RequestOutcome} (hne : outcome ≠ .invalid)
    (hcode : ∀ c, outcome ≠ .code c) : conclude codes errors = outcome ↔
      codes = [] ∧ ∃ e, errors = [e] ∧ Safe e ∧ errorOutcome e = outcome := by
  obtain ⟨c', rfl, rfl⟩ | ⟨e, rfl, rfl⟩ | ⟨hinvalid, -, herror⟩ := conclude_cases codes errors
  · rw [conclude_code]
    constructor
    · intro h
      split at h
      · exact absurd h.symm (hcode c')
      · exact absurd h.symm hne
    · intro h
      cases h.1
  · rw [conclude_error]
    by_cases hsafe : isSafeCallbackValue e = true
    · rw [if_pos hsafe]
      constructor
      · intro h
        exact ⟨rfl, e, rfl, isSafeCallbackValue_iff.mp hsafe, h⟩
      · intro h
        obtain ⟨-, e', heq, -, h⟩ := h
        cases heq
        exact h
    · rw [if_neg hsafe]
      constructor
      · intro h
        exact absurd h.symm hne
      · intro h
        obtain ⟨-, e', heq, hsafe', -⟩ := h
        cases heq
        exact absurd (isSafeCallbackValue_iff.mpr hsafe') hsafe
  · rw [hinvalid]
    constructor
    · intro h
      exact absurd h.symm hne
    · intro h
      obtain ⟨hnone, e, heq, -, -⟩ := h
      exact absurd ⟨hnone, heq⟩ (herror e)

/-- An outcome that is an answer comes of what a valid request says. -/
theorem validateRequest_answer_iff (hne : expected ≠ "") {outcome : RequestOutcome} (hinvalid : outcome ≠ .invalid)
    (hoversized : outcome ≠ .oversized) : validateRequest request expected = outcome ↔
      request.Valid expected ∧ conclude (request.values "code") (request.values "error") = outcome := by
  constructor
  · intro h
    by_cases hvalid : request.Valid expected
    · rw [validateRequest_valid hne hvalid] at h
      exact ⟨hvalid, h⟩
    · refine absurd ?_ hinvalid
      rw [← h]
      refine validateRequest_invalid hvalid ?_
      intro hmethod
      refine Nat.not_lt.mp fun hlarge => hoversized ?_
      rw [← h]
      exact validateRequest_oversized hmethod hlarge
  · intro h
    rw [validateRequest_valid hne h.1]
    exact h.2

theorem conclude_ne_oversized (codes errors : List String) : conclude codes errors ≠ .oversized := by
  obtain ⟨c, rfl, rfl⟩ | ⟨e, rfl, rfl⟩ | ⟨hinvalid, -, -⟩ := conclude_cases codes errors
  · rw [conclude_code]
    split <;> simp
  · rw [conclude_error]
    split
    · exact (errorOutcome_ne e).2.1
    · simp
  · rw [hinvalid]
    simp

theorem validateRequest_oversized_iff (hne : expected ≠ "") :
    validateRequest request expected = .oversized ↔ request.method = .get ∧ 8192 < request.url.utf8ByteSize := by
  constructor
  · intro h
    by_cases hvalid : request.Valid expected
    · rw [validateRequest_valid hne hvalid] at h
      exact absurd h (conclude_ne_oversized _ _)
    · refine by_contra fun hsmall => ?_
      have hinvalid : validateRequest request expected = .invalid := validateRequest_invalid hvalid fun hmethod =>
        Nat.not_lt.mp fun hlarge => hsmall ⟨hmethod, hlarge⟩
      rw [h] at hinvalid
      cases hinvalid
  · intro h
    exact validateRequest_oversized h.1 h.2

theorem validateRequest_code_iff (hne : expected ≠ "") {c : String} : validateRequest request expected = .code c ↔
    request.Valid expected ∧ request.values "code" = [c] ∧ request.values "error" = [] ∧ Safe c := by
  rw [validateRequest_answer_iff hne (by simp) (by simp), conclude_eq_code_iff]

theorem validateRequest_error_iff (hne : expected ≠ "") {outcome : RequestOutcome}
    (houtcome : outcome ∈ [.denied, .authorizationTemporarilyUnavailable, .authorizationFailed]) :
    validateRequest request expected = outcome ↔ request.Valid expected ∧ request.values "code" = [] ∧
      ∃ e, request.values "error" = [e] ∧ Safe e ∧ errorOutcome e = outcome := by
  simp only [List.mem_cons, List.not_mem_nil, or_false] at houtcome
  obtain rfl | rfl | rfl := houtcome
  all_goals rw [validateRequest_answer_iff hne (by simp) (by simp), conclude_eq_error_iff (by simp) (by simp)]

theorem errorOutcome_mem (error : String) :
    errorOutcome error ∈ [.denied, .authorizationTemporarilyUnavailable, .authorizationFailed] := by
  rw [errorOutcome_eq]
  split
  · simp
  · split <;> simp

/-- **What the callback accepts.** -/
theorem validateRequest_iff (request : Request) (expected : String) (hne : expected ≠ "") :
    (∀ c, validateRequest request expected = .code c ↔ request.Valid expected ∧ request.values "code" = [c] ∧
      request.values "error" = [] ∧ Safe c) ∧
    (∀ outcome ∈ [RequestOutcome.denied, .authorizationTemporarilyUnavailable, .authorizationFailed],
      validateRequest request expected = outcome ↔ request.Valid expected ∧ request.values "code" = [] ∧
        ∃ e, request.values "error" = [e] ∧ Safe e ∧
          outcome = if e = "access_denied" then .denied
            else if e = "server_error" ∨ e = "temporarily_unavailable" then .authorizationTemporarilyUnavailable
            else .authorizationFailed) ∧
    (validateRequest request expected = .oversized ↔ request.method = .get ∧ 8192 < request.url.utf8ByteSize) ∧
    (validateRequest request expected = .invalid ↔ ¬(request.method = .get ∧ 8192 < request.url.utf8ByteSize) ∧
      ¬(request.Valid expected ∧ ((∃ c, request.values "code" = [c] ∧ request.values "error" = [] ∧ Safe c) ∨
        (request.values "code" = [] ∧ ∃ e, request.values "error" = [e] ∧ Safe e)))) := by
  refine ⟨fun c => validateRequest_code_iff hne, ?_, validateRequest_oversized_iff hne, ?_⟩
  · intro outcome houtcome
    simp only [validateRequest_error_iff hne houtcome, errorOutcome_eq, eq_comm]
  · constructor
    · intro h
      refine ⟨fun hlarge => ?_, fun hanswer => ?_⟩
      · rw [(validateRequest_oversized_iff hne).mpr hlarge] at h
        cases h
      · obtain ⟨hvalid, ⟨c, hcodes, herrors, hsafe⟩ | ⟨hcodes, e, herrors, hsafe⟩⟩ := hanswer
        · rw [(validateRequest_code_iff hne).mpr ⟨hvalid, hcodes, herrors, hsafe⟩] at h
          cases h
        · rw [(validateRequest_error_iff hne (errorOutcome_mem e)).mpr ⟨hvalid, hcodes, e, herrors, hsafe, rfl⟩] at h
          exact absurd h (errorOutcome_ne e).1
    · intro h
      obtain ⟨hsmall, hnone⟩ := h
      have herror : ∀ outcome ∈ [RequestOutcome.denied, .authorizationTemporarilyUnavailable, .authorizationFailed],
          validateRequest request expected ≠ outcome := by
        intro outcome houtcome heq
        obtain ⟨hvalid, hcodes, e, herrors, hsafe, -⟩ := (validateRequest_error_iff hne houtcome).mp heq
        exact hnone ⟨hvalid, .inr ⟨hcodes, e, herrors, hsafe⟩⟩
      cases hr : validateRequest request expected with
      | code c =>
        obtain ⟨hvalid, hcodes, herrors, hsafe⟩ := (validateRequest_code_iff hne).mp hr
        exact absurd ⟨hvalid, .inl ⟨c, hcodes, herrors, hsafe⟩⟩ hnone
      | denied => exact absurd hr (herror .denied (by simp))
      | authorizationTemporarilyUnavailable => exact absurd hr (herror .authorizationTemporarilyUnavailable (by simp))
      | authorizationFailed => exact absurd hr (herror .authorizationFailed (by simp))
      | invalid => rfl
      | oversized => exact absurd ((validateRequest_oversized_iff hne).mp hr) hsmall

end

/-- A code, with its state in an escaped name and before a suffix. -/
def sampleCallback : Request where
  method := .get
  url := "/auth/callback?code=a+c%26&st%61te=s.onboarding_entrypoint=life_sciences"

theorem validateRequest_iff_sample : sampleCallback.Valid "s" ∧ sampleCallback.values "code" = ["a c&"] := by
  have hcode : validateRequest sampleCallback "s" = .code "a c&" := by decide +kernel
  obtain ⟨hvalid, hcodes, -⟩ := ((validateRequest_iff sampleCallback "s" (by decide)).1 "a c&").mp hcode
  exact ⟨hvalid, hcodes⟩

/-! ## The wait -/

instance (r : Request) (expectedState : String) : Decidable (r.Knows expectedState) :=
  decidable_of_iff (r.values "state" = [expectedState] ∨ r.values "state" = [expectedState ++ acceptedStateSuffix]) <| by
    simp only [Request.Knows]
    constructor
    · intro h
      obtain h | h := h
      · exact ⟨_, h, .inl rfl⟩
      · exact ⟨_, h, .inr rfl⟩
    · intro h
      obtain ⟨state, h, rfl | rfl⟩ := h
      · exact .inl h
      · exact .inr h

/-- What a turn receives in the time it waits for. -/
def Turn.received (turn : Turn) (deadline : Nat) : Except Unit (Option Arrival) :=
  turn.receive (min (deadline - turn.now) pollNanoseconds)

/-- The requests that are received, in order. -/
def requests (deadline : Nat) (turns : List Turn) : List Request :=
  turns.filterMap fun turn => match turn.received deadline with
    | .ok (some arrival) => some arrival.request
    | _ => none

/-- Every turn is before the deadline, and the listener does not fail. -/
def InTime (deadline : Nat) (turns : List Turn) : Prop :=
  ∀ turn ∈ turns, turn.now < deadline ∧ ∀ u, turn.received deadline ≠ .error u

/-- The outcome of the first request that has one. -/
def firstTerminal (expectedState : String) (rs : List Request) : Except CallbackError CallbackOutcome :=
  match rs.findSome? fun r => (validateRequest r expectedState).terminal with
  | some outcome => .ok outcome
  | none => .error .timedOut

section
variable {expected : String} {deadline : Nat} {turns : List Turn}

/-- **The wait ends with the first request that ends it**, whether its receipt is delivered or not. -/
theorem waitUntil_eq (h : InTime deadline turns) :
    waitUntil expected deadline turns = firstTerminal expected (requests deadline turns) := by
  induction turns with
  | nil => rfl
  | cons turn turns ih =>
    obtain ⟨⟨hnow, hreceived⟩, hturns⟩ := List.forall_mem_cons.mp h
    have hremaining : ¬ deadline - turn.now = 0 := by omega
    have hturn : turn.receive (min (deadline - turn.now) pollNanoseconds) = turn.received deadline := rfl
    unfold waitUntil
    dsimp only
    rw [if_neg hremaining, hturn]
    cases hr : turn.received deadline with
    | error u => exact absurd hr (hreceived u)
    | ok arrival =>
      cases arrival with
      | none =>
        have hrest : requests deadline (turn :: turns) = requests deadline turns := by simp [requests, hr]
        rw [hrest]
        exact ih hturns
      | some arrival =>
        have hrest : requests deadline (turn :: turns) = arrival.request :: requests deadline turns := by
          simp [requests, hr]
        rw [hrest, firstTerminal, List.findSome?_cons]
        dsimp only
        cases hterminal : (validateRequest arrival.request expected).terminal with
        | some outcome => rfl
        | none => exact ih hturns

/-- A request that ends the wait knows the state. -/
theorem terminal_knows (hne : expected ≠ "") {r : Request} {outcome : CallbackOutcome}
    (h : (validateRequest r expected).terminal = some outcome) : r.Knows expected := by
  have hinvalid : validateRequest r expected ≠ .invalid := by
    intro heq
    rw [heq] at h
    cases h
  have hoversized : validateRequest r expected ≠ .oversized := by
    intro heq
    rw [heq] at h
    cases h
  exact ((validateRequest_answer_iff hne hinvalid hoversized).mp rfl).1.knows

theorem firstTerminal_filter (hne : expected ≠ "") (rs : List Request) :
    firstTerminal expected (rs.filter (·.Knows expected)) = firstTerminal expected rs := by
  have hsame : (rs.filter (·.Knows expected)).findSome? (fun r => (validateRequest r expected).terminal) =
      rs.findSome? fun r => (validateRequest r expected).terminal := by
    induction rs with
    | nil => rfl
    | cons r rs ih =>
      by_cases hknows : r.Knows expected
      · rw [List.filter_cons_of_pos (by simpa using hknows), List.findSome?_cons, List.findSome?_cons, ih]
      · have hnone : (validateRequest r expected).terminal = none := by
          rw [Option.eq_none_iff_forall_not_mem]
          intro outcome houtcome
          exact hknows (terminal_knows hne houtcome)
        rw [List.filter_cons_of_neg (by simpa using hknows), List.findSome?_cons, hnone, ih]
  rw [firstTerminal, hsame]
  rfl

/-- **Requests that do not know the state do not matter**: the wait ends
with the first request that ends it, and however many others come between
those that know the state, its outcome is the same. -/
theorem wait_ignores_strangers (expected : String) (hne : expected ≠ "") (timeout started : Nat) (turns : List Turn)
    (h : InTime (started + timeout) turns) :
    wait expected timeout started turns = firstTerminal expected (requests (started + timeout) turns) ∧
    ∀ timeout' started' turns', InTime (started' + timeout') turns' →
      (requests (started' + timeout') turns').filter (·.Knows expected) =
        (requests (started + timeout) turns).filter (·.Knows expected) →
      wait expected timeout' started' turns' = wait expected timeout started turns := by
  refine ⟨waitUntil_eq h, ?_⟩
  intro timeout' started' turns' h' hsame
  rw [wait, wait, waitUntil_eq h, waitUntil_eq h', ← firstTerminal_filter hne, hsame, firstTerminal_filter hne]

end

/-- A turn with a request whose receipt is not delivered. -/
def sampleTurn (r : Request) : Turn where
  now := 1
  receive := fun _ => .ok (some ⟨r, fun _ => .error .listenerFailed⟩)

/-- A stranger's denial before the answer. -/
def sampleTurns : List Turn :=
  [sampleTurn ⟨.get, "/auth/callback?error=access_denied&state=t"⟩, sampleTurn sampleCallback]

/-- Without the stranger, and from another start, the wait ends as it does with it. -/
theorem wait_ignores_strangers_sample : wait "s" 10 0 sampleTurns = .ok (.code "a c&") ∧
    wait "s" 7 1 [sampleTurn sampleCallback] = wait "s" 10 0 sampleTurns := by
  have htime : InTime (0 + 10) sampleTurns := by
    intro turn hturn
    simp only [sampleTurns, List.mem_cons, List.not_mem_nil, or_false] at hturn
    obtain rfl | rfl := hturn
    · exact ⟨by decide, by intro u hu; cases hu⟩
    · exact ⟨by decide, by intro u hu; cases hu⟩
  have htime' : InTime (1 + 7) [sampleTurn sampleCallback] := by
    intro turn hturn
    obtain rfl := List.mem_singleton.mp hturn
    exact ⟨by decide, by intro u hu; cases hu⟩
  obtain ⟨hfirst, hsame⟩ := wait_ignores_strangers "s" (by decide) 10 0 sampleTurns htime
  refine ⟨?_, hsame 7 1 _ htime' (by decide +kernel)⟩
  rw [hfirst]
  decide +kernel

end AgentHarness.Auth.Callback
