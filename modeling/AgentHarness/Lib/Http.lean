/-
An HTTP exchange from the client's side: a client is built, one request is
sent, and the response is read in pieces of any size. `Serves` is what may
come of it from a given response. Where it is faulty, whatever is asked for may
fail and the clock have any reading; and the rules here let a caller say what
it makes of the response and, where it is faulty, of a failure.
-/
import AgentHarness.Lib.Alone
import AgentHarness.Lib.Text

namespace Http

open Text Interact

structure ResponseHead where
  status : Nat
  contentLength : Option UInt64
  deriving DecidableEq, Repr

def ResponseHead.isSuccess (head : ResponseHead) : Bool := 200 ≤ head.status && head.status < 300

def ResponseHead.isServerError (head : ResponseHead) : Bool := 500 ≤ head.status && head.status < 600

/-- What a client asks for. Times are in nanoseconds; `elapsed` is the time
since the call began. A redirect is not followed. -/
inductive Request where
  | build (connectTimeout requestTimeout : Nat)
  | elapsed
  | post (url contentType : String) (body : Bytes)
  | read (size : Nat)
  deriving DecidableEq

def Answer : Request → Type
  | .build _ _ => Except Unit Unit
  | .elapsed => Nat
  | .post _ _ _ => Except Unit ResponseHead
  | .read size => Except Unit { bytes : Bytes // bytes.length ≤ size }

abbrev Call (ε α : Type) := Interact.Call Request Answer ε α

variable {ε α : Type}

abbrev ask (r : Request) : Call ε (Answer r) := Interact.ask r

def elapsed : Call ε Nat := ask .elapsed

/-! ## Requests that may fail -/

def buildClient (failed : ε) (connectTimeout requestTimeout : Nat) : Call ε Unit := do
  exit ((← ask (.build connectTimeout requestTimeout)).mapError fun _ => failed)

def post (failed : ε) (url contentType : String) (body : Bytes) : Call ε ResponseHead := do
  exit ((← ask (.post url contentType body)).mapError fun _ => failed)

/-- A read. One of no bytes is the end of the body. -/
def read (failed : ε) (size : Nat) : Call ε Bytes := do
  return (← exit ((← ask (.read size)).mapError fun _ => failed)).val

/-- `take(limit).read_to_end(..)`: no more is read than is left of the limit.
Each read but the last has a byte, so there is one for each at most. -/
def takeToEnd (failed : ε) : (reads limit : Nat) → Call ε Bytes
  | 0, _ => return []
  | reads + 1, limit => do
    if limit = 0 then return []
    else
      let bytes ← read failed limit
      if bytes = [] then return []
      else return bytes ++ (← takeToEnd failed reads (limit - bytes.length))

/-! ## The other side -/

/-- What may come of a request where the response has this head, and this
much of the body is left. The time is not up before the budget. -/
def Serves (faulty : Prop) (budget : Nat) (head : ResponseHead) : Effect Unit Answer Bytes := fun _ rest r a rest' =>
  match r, a with
  | .build _ _, .ok _ => rest' = rest
  | .build _ _, .error _ => faulty ∧ rest' = rest
  | .elapsed, time => (Nat.lt time budget ∨ faulty) ∧ rest' = rest
  | .post _ _ _, .ok answered => answered = head ∧ rest' = rest
  | .post _ _ _, .error _ => faulty ∧ rest' = rest
  | .read size, .ok bytes => rest = bytes.val ++ rest' ∧ (bytes.val = [] → rest = [] ∨ size = 0)
  | .read _, .error _ => faulty ∧ rest' = rest

section
variable {faulty : Prop} {budget : Nat} {head : ResponseHead} {rest : Bytes} {Q : Bytes → Except ε α → Prop} {failed : ε}

theorem alone_elapsed_bind {f : Nat → Call ε α} (hbudget : 0 < budget)
    (hf : ∀ time, time < budget ∨ faulty → Alone (Serves faulty budget head) () Q rest (f time).run) :
    Alone (Serves faulty budget head) () Q rest (elapsed >>= f).run := by
  refine ⟨⟨(0 : Nat), rest, .inl hbudget, rfl⟩, fun time rest' hx => ?_⟩
  obtain ⟨htime, rfl⟩ := hx
  exact hf time htime

theorem alone_buildClient_bind {connectTimeout requestTimeout : Nat} {f : Unit → Call ε α}
    (hfail : faulty → Q rest (.error failed)) (hf : Alone (Serves faulty budget head) () Q rest (f ()).run) :
    Alone (Serves faulty budget head) () Q rest (buildClient failed connectTimeout requestTimeout >>= f).run := by
  refine ⟨⟨.ok (), rest, rfl⟩, fun a rest' hx => ?_⟩
  cases a with
  | error _ =>
    obtain ⟨hfaulty, rfl⟩ := hx
    exact hfail hfaulty
  | ok _ =>
    obtain rfl : rest' = rest := hx
    exact hf

theorem alone_post_bind {url contentType : String} {body : Bytes} {f : ResponseHead → Call ε α}
    (hfail : faulty → Q rest (.error failed)) (hf : Alone (Serves faulty budget head) () Q rest (f head).run) :
    Alone (Serves faulty budget head) () Q rest (post failed url contentType body >>= f).run := by
  refine ⟨⟨.ok head, rest, rfl, rfl⟩, fun a rest' hx => ?_⟩
  cases a with
  | error _ =>
    obtain ⟨hfaulty, rfl⟩ := hx
    exact hfail hfaulty
  | ok answered =>
    obtain ⟨rfl, rfl⟩ := hx
    exact hf

/-- A read brings some of what is left, unless nothing is left. -/
theorem alone_read_bind {size : Nat} {f : Bytes → Call ε α} (hfail : faulty → Q rest (.error failed))
    (hf : ∀ bytes rest', rest = bytes ++ rest' → bytes.length ≤ size → (bytes = [] → rest = [] ∨ size = 0) →
      Alone (Serves faulty budget head) () Q rest' (f bytes).run) :
    Alone (Serves faulty budget head) () Q rest (read failed size >>= f).run := by
  have htake : rest.take size = [] → rest = [] ∨ size = 0 := fun h => (List.take_eq_nil_iff.mp h).symm
  refine ⟨⟨.ok ⟨rest.take size, List.length_take_le size rest⟩, rest.drop size, (List.take_append_drop size rest).symm, htake⟩,
    fun a rest' hx => ?_⟩
  cases a with
  | error _ =>
    obtain ⟨hfaulty, rfl⟩ := hx
    exact hfail hfaulty
  | ok bytes =>
    obtain ⟨hrest, hend⟩ := hx
    exact hf bytes.val rest' hrest bytes.property hend

/-- **What is taken to the end** is the body up to the limit, however it comes in, and no more is read. -/
theorem alone_takeToEnd {reads limit : Nat} (hreads : limit ≤ reads) :
    Alone (Serves faulty budget head) () (fun rest' x => rest.length ≤ rest'.length + limit ∧
      (x = .ok (rest.take limit) ∨ (faulty ∧ x = .error failed))) rest (takeToEnd failed reads limit).run := by
  induction reads generalizing limit rest with
  | zero =>
    obtain rfl : limit = 0 := Nat.le_zero.mp hreads
    exact ⟨Nat.le_add_right _ _, .inl rfl⟩
  | succ reads ih =>
    unfold takeToEnd
    split
    · next hlimit =>
      subst hlimit
      exact ⟨Nat.le_add_right _ _, .inl rfl⟩
    · next hlimit =>
      refine alone_read_bind (fun hfaulty => ⟨Nat.le_add_right _ _, .inr ⟨hfaulty, rfl⟩⟩) fun bytes rest' hrest hsize hend => ?_
      split
      · next hnil =>
        obtain rfl : rest = [] := (hend hnil).resolve_right hlimit
        exact ⟨Nat.zero_le _, .inl (congrArg Except.ok List.take_nil.symm)⟩
      · next hne =>
        have hlength : 0 < bytes.length := List.length_pos_iff.mpr hne
        have htotal : rest.length = bytes.length + rest'.length := by rw [hrest, List.length_append]
        have hleft : limit - bytes.length ≤ reads := by omega
        refine alone_bind (ih hleft) (fun _ e he => ?_) fun _ more hmore => ?_
        · obtain ⟨hread, hok | ⟨hfaulty, herror⟩⟩ := he
          · cases hok
          · exact ⟨by omega, .inr ⟨hfaulty, herror ▸ rfl⟩⟩
        · obtain ⟨hread, hok | ⟨-, herror⟩⟩ := hmore
          · refine ⟨by omega, .inl ?_⟩
            obtain rfl := Except.ok.inj hok
            rw [hrest, List.take_append, List.take_of_length_le hsize]
          · cases herror

end

end Http
