import SeqStore.Proofs.Interchange

/-!
Runs of requests that do not grow a container. Nothing can then become too long to count or find
no room, so a list and a buffer do all along what the plain sequence of their elements does.
-/

namespace SeqStore

namespace Request

variable {α γ : Type}

/-- Whether the request adds an element. -/
def grows : Request α → Bool
  | .append _ => true
  | _ => false

variable [BEq α]

/-- What the requests leave of a container. -/
def outcome [MutableContainer γ α] (c : γ) : List (Request α) → γ
  | [] => c
  | request :: rest => outcome (request.exchange c).after rest

/-! ## Plain sequences -/

/-- What a sequence answers to one request after the other. -/
def plainAnswers (xs : List α) : List (Request α) → List (Except Failure (Answer α))
  | [] => []
  | request :: rest => (request.plain xs).answer :: plainAnswers (request.plain xs).after rest

/-- What the requests leave of a sequence. -/
def plainOutcome (xs : List α) : List (Request α) → List α
  | [] => xs
  | request :: rest => plainOutcome (request.plain xs).after rest

theorem length_plain_le (request : Request α) (xs : List α) (steady : request.grows = false) :
    (request.plain xs).after.length ≤ xs.length := by
  cases request with
  | append x => cases steady
  | remove x => exact List.length_eraseP_le
  | set idx x => exact Nat.le_of_eq List.length_set
  | len | isEmpty | index x | contains x | get idx => exact Nat.le_refl _

theorem length_plainOutcome_le (requests : List (Request α)) (xs : List α)
    (steady : ∀ request ∈ requests, request.grows = false) :
    (plainOutcome xs requests).length ≤ xs.length := by
  induction requests generalizing xs with
  | nil => exact Nat.le_refl _
  | cons request rest ih =>
    have hfirst := request.length_plain_le xs (steady request List.mem_cons_self)
    have hrest := ih (request.plain xs).after fun r hr => steady r (List.mem_cons_of_mem _ hr)
    exact Nat.le_trans hrest hfirst

/-! ## Lists and buffers -/

theorem list_run (requests : List (Request α)) {l : LinkedList α} {xs : List α} (h : l.Holds xs)
    (steady : ∀ request ∈ requests, request.grows = false) :
    (exchanges l requests).map Exchange.answer = plainAnswers xs requests ∧
      (outcome l requests).Holds (plainOutcome xs requests) := by
  induction requests generalizing l xs with
  | nil => exact ⟨rfl, h⟩
  | cons request rest ih =>
    have hle := request.length_plain_le xs (steady request List.mem_cons_self)
    obtain ⟨hanswer, hafter⟩ := request.list_step h (Nat.lt_of_le_of_lt hle h.length_lt)
    obtain ⟨hanswers, houtcome⟩ := ih hafter fun r hr => steady r (List.mem_cons_of_mem _ hr)
    exact ⟨congrArg₂ List.cons hanswer hanswers, houtcome⟩

theorem buffer_run (requests : List (Request α)) (b : Buffer α)
    (short : b.toList.length < UInt64.size)
    (steady : ∀ request ∈ requests, request.grows = false) :
    (exchanges b requests).map Exchange.answer = plainAnswers b.toList requests ∧
      (outcome b requests).toList = plainOutcome b.toList requests := by
  induction requests generalizing b with
  | nil => exact ⟨rfl, rfl⟩
  | cons request rest ih =>
    have hsteady := steady request List.mem_cons_self
    have hroom : (request.perform b).value.answer ≠ .error (.abort .full) := by
      intro hfull
      obtain ⟨-, x, rfl⟩ := (request.perform_full_iff b).mp hfull
      cases hsteady
    have hle := request.length_plain_le b.toList hsteady
    obtain ⟨hanswer, hafter, -⟩ := buffer_step b request short hroom
    have hshort : (request.exchange b).after.toList.length < UInt64.size := by
      change (request.perform b).value.after.toList.length < _
      rw [hafter]
      exact Nat.lt_of_le_of_lt hle short
    obtain ⟨hanswers, houtcome⟩ := ih (request.exchange b).after hshort
      fun r hr => steady r (List.mem_cons_of_mem _ hr)
    rw [exchanges, outcome, plainAnswers, plainOutcome, ← hafter]
    exact ⟨congrArg₂ List.cons hanswer hanswers, houtcome⟩

end Request

end SeqStore
