import SeqStore.Proofs.Runs

/-!
Buffers of fixed capacity. Such a buffer never holds more than it has room for and turns down an
append exactly when it is full. Leave out the appends it turned down, and it has done what a plain
sequence does, answer for answer, and what growable storage does, call for call.
-/

namespace SeqStore

variable {α γ ε β : Type}

/-! ## Storage that grows -/

/-- The same elements in storage that grows. -/
def Buffer.unbounded (b : Buffer α) : Buffer α := { b with storage := .growable }

def Change.unbounded (c : Change ε β (Buffer α)) : Change ε β (Buffer α) :=
  ⟨c.answer, c.after.unbounded⟩

namespace Buffer

@[simp] theorem toList_unbounded (b : Buffer α) : b.unbounded.toList = b.toList := rfl

theorem append_unbounded (b : Buffer α) (x : α) (room : b.isFull = false) :
    b.unbounded.append x = Change.unbounded <$> b.append x := by
  rw [append_eq, append_eq, room]
  rfl

theorem remove_unbounded [BEq α] (b : Buffer α) (x : α) :
    b.unbounded.remove x = Change.unbounded <$> b.remove x := by
  rw [remove_eq, remove_eq, toList_unbounded]
  cases b.toList.find? (· == x) <;> rfl

theorem set_unbounded (b : Buffer α) (idx : UInt64) (x : α) :
    b.unbounded.set idx x = Change.unbounded <$> b.set idx x := by
  rw [set_eq, set_eq, toList_unbounded]
  cases b.toList[idx.toNat]? <;> rfl

end Buffer

namespace Exchange

/-- The same exchange with a buffer whose storage grows. -/
def unbounded (e : Exchange (Buffer α) α) : Exchange (Buffer α) α :=
  { e with after := e.after.unbounded }

/-- Whether the request found no room. -/
def isRefused (e : Exchange γ α) : Bool :=
  match e.answer with
  | .error (.abort .full) => true
  | _ => false

theorem isRefused_iff (e : Exchange γ α) :
    e.isRefused = true ↔ e.answer = .error (.abort .full) := by
  unfold isRefused
  split <;> simp_all

end Exchange

/-! ## The capacity -/

/-- Storage of a fixed capacity that has not been exceeded. -/
structure Buffer.Within (b : Buffer α) (capacity : Nat) : Prop where
  storage : b.storage = .fixed capacity
  length : b.toList.length ≤ capacity

namespace Buffer

theorem within_empty (capacity : Nat) : (empty (.fixed capacity) : Buffer α).Within capacity :=
  ⟨rfl, Nat.zero_le _⟩

variable {b : Buffer α} {capacity : Nat}

theorem Within.isFull_iff (h : b.Within capacity) :
    b.isFull = true ↔ b.toList.length = capacity := by
  have hlength := h.length
  rw [isFull, h.storage]
  simp only [Storage.limit, decide_eq_true_eq]
  change capacity ≤ b.toList.length ↔ _
  omega

theorem Within.length_lt {capacity : UInt64} (h : b.Within capacity.toNat) :
    b.toList.length < UInt64.size :=
  Nat.lt_of_le_of_lt h.length capacity.toNat_lt_size

theorem Within.len_eq {capacity : UInt64} (h : b.Within capacity.toNat) :
    b.len.toNat = b.toList.length := by
  rw [b.len_eq]
  exact UInt64.toNat_ofNat_of_lt h.length_lt

end Buffer

/-! ## One request -/

section

variable [BEq α]

namespace Request

/-- Where there is room, the storage makes no difference. -/
theorem exchange_unbounded (request : Request α) (b : Buffer α)
    (accepted : (request.exchange b).isRefused = false) :
    request.exchange b.unbounded = (request.exchange b).unbounded := by
  cases request with
  | len | isEmpty | index x | contains x | get idx => rfl
  | append x =>
    have hroom : b.isFull = false := by
      rw [Bool.eq_false_iff]
      intro hfull
      have hrefused := (perform_full_iff (.append x) b).mpr ⟨hfull, x, rfl⟩
      exact Bool.false_ne_true (accepted.symm.trans ((Exchange.isRefused_iff _).mpr hrefused))
    simp only [exchange, perform, MutableContainer.append, b.append_unbounded x hroom,
      Traced.value_bind, Traced.log_bind, Traced.value_map, Traced.log_map]
    rfl
  | remove x =>
    simp only [exchange, perform, MutableContainer.remove, b.remove_unbounded x,
      Traced.value_bind, Traced.log_bind, Traced.value_map, Traced.log_map]
    rfl
  | set idx x =>
    simp only [exchange, perform, MutableContainer.set, b.set_unbounded idx x,
      Traced.value_bind, Traced.log_bind, Traced.value_map, Traced.log_map]
    rfl

/-- What a refused request finds is what it leaves. -/
theorem exchange_refused (request : Request α) (b : Buffer α)
    (refused : (request.exchange b).isRefused = true) : (request.exchange b).after = b := by
  obtain ⟨hfull, x, rfl⟩ :=
    (request.perform_full_iff b).mp ((Exchange.isRefused_iff _).mp refused)
  change (b.append x).value.after = b
  rw [b.append_eq, hfull]
  rfl

/-- The exchanges of a run that found room. -/
def accepted (b : Buffer α) (requests : List (Request α)) : List (Exchange (Buffer α) α) :=
  (exchanges b requests).filter (!·.isRefused)

/-- A refused request leaves no trace in the run. -/
theorem accepted_of_refused {request : Request α} {b : Buffer α}
    (refused : (request.exchange b).isRefused = true) (rest : List (Request α)) :
    accepted b (request :: rest) = accepted b rest ∧
      outcome b (request :: rest) = outcome b rest := by
  have hsame := request.exchange_refused b refused
  rw [outcome, hsame]
  exact ⟨by simp [accepted, exchanges, refused, hsame], rfl⟩

theorem accepted_of_room {request : Request α} {b : Buffer α}
    (room : (request.exchange b).isRefused = false) (rest : List (Request α)) :
    accepted b (request :: rest) =
      request.exchange b :: accepted (request.exchange b).after rest := by
  simp [accepted, exchanges, room]

theorem exchanges_unbounded (requests : List (Request α)) (b : Buffer α) :
    exchanges b.unbounded ((accepted b requests).map Exchange.request) =
        (accepted b requests).map Exchange.unbounded ∧
      outcome b.unbounded ((accepted b requests).map Exchange.request) =
        (outcome b requests).unbounded := by
  induction requests generalizing b with
  | nil => exact ⟨rfl, rfl⟩
  | cons request rest ih =>
    cases hrefused : (request.exchange b).isRefused with
    | true =>
      obtain ⟨hskip, hleft⟩ := accepted_of_refused hrefused rest
      rw [hskip, hleft]
      exact ih b
    | false =>
      have hstep := request.exchange_unbounded b hrefused
      obtain ⟨hexchanges, houtcome⟩ := ih (request.exchange b).after
      simp only [accepted_of_room hrefused, List.map_cons]
      change request.exchange b.unbounded :: exchanges (request.exchange b.unbounded).after _ = _ ∧
        outcome (request.exchange b.unbounded).after _ = _
      rw [hstep]
      exact ⟨congrArg _ hexchanges, houtcome⟩

end Request

/-! ## Runs -/

namespace Buffer

variable {b : Buffer α} {capacity : Nat}

theorem Within.exchange (h : b.Within capacity) (request : Request α) :
    (request.exchange b).after.Within capacity := by
  cases request with
  | len | isEmpty | index x | contains x | get idx => exact h
  | append x =>
    change (b.append x).value.after.Within capacity
    rw [append_eq]
    cases hfull : b.isFull with
    | true => exact h
    | false =>
      have hroom : b.toList.length ≠ capacity := by
        intro e
        rw [h.isFull_iff.mpr e] at hfull
        cases hfull
      have hlength := h.length
      refine ⟨h.storage, ?_⟩
      change (b.toList ++ [x]).length ≤ capacity
      rw [List.length_append, List.length_singleton]
      omega
  | remove x =>
    obtain ⟨-, hafter, hstorage⟩ := Request.buffer_remove b x
    refine ⟨hstorage.trans h.storage, ?_⟩
    change (b.remove x).value.after.toList.length ≤ capacity
    rw [hafter]
    exact Nat.le_trans List.length_eraseP_le h.length
  | set idx x =>
    obtain ⟨-, hafter, hstorage⟩ := Request.buffer_set b idx x
    refine ⟨hstorage.trans h.storage, ?_⟩
    change (b.set idx x).value.after.toList.length ≤ capacity
    rw [hafter, List.length_set]
    exact h.length

theorem Within.outcome (h : b.Within capacity) (requests : List (Request α)) :
    (Request.outcome b requests).Within capacity := by
  induction requests generalizing b with
  | nil => exact h
  | cons request rest ih => exact ih (h.exchange request)

/-- The requests that find room are answered as a plain sequence answers them, and the others
change nothing. -/
theorem Within.accepted_plain {capacity : UInt64} (h : b.Within capacity.toNat)
    (requests : List (Request α)) :
    (Request.accepted b requests).map Exchange.answer =
        Request.plainAnswers b.toList ((Request.accepted b requests).map Exchange.request) ∧
      (Request.outcome b requests).toList =
        Request.plainOutcome b.toList ((Request.accepted b requests).map Exchange.request) := by
  induction requests generalizing b with
  | nil => exact ⟨rfl, rfl⟩
  | cons request rest ih =>
    cases hrefused : (request.exchange b).isRefused with
    | true =>
      obtain ⟨hskip, hleft⟩ := Request.accepted_of_refused hrefused rest
      rw [hskip, hleft]
      exact ih h
    | false =>
      have hroom : (request.exchange b).answer ≠ .error (.abort .full) := by
        rw [ne_eq, ← Exchange.isRefused_iff, hrefused]
        exact Bool.false_ne_true
      obtain ⟨hanswer, hafter, -⟩ := Request.buffer_step b request h.length_lt hroom
      obtain ⟨hanswers, houtcome⟩ := ih (h.exchange request)
      rw [Request.accepted_of_room hrefused, List.map_cons, List.map_cons]
      change _ = (request.plain b.toList).answer ::
          Request.plainAnswers (request.plain b.toList).after _ ∧
        _ = Request.plainOutcome (request.plain b.toList).after _
      rw [← hafter]
      exact ⟨congrArg₂ List.cons hanswer hanswers, houtcome⟩

theorem length_remove_lt (b : Buffer α) {x : α} {answer : Answer α}
    (removed : (Request.exchange b (.remove x)).answer = .ok answer) :
    (Request.exchange b (.remove x)).after.toList.length < b.toList.length := by
  obtain ⟨hanswer, hafter, -⟩ := Request.buffer_remove b x
  change Vessel.access (b.remove x).value.answer = .ok answer at removed
  change (b.remove x).value.after.toList.length < _
  rw [hanswer, Request.firstMatch] at removed
  cases hfind : b.toList.find? (· == x) with
  | none => simp [hfind, Vessel.access] at removed
  | some y =>
    have hmem := List.mem_of_find?_eq_some hfind
    have hlength := List.length_eraseP_of_mem hmem (List.find?_some hfind)
    have hpos := List.length_pos_of_mem hmem
    rw [hafter, hlength]
    omega

/-- A successful removal makes room, and no request but an append takes it up again. -/
theorem Within.append_after_remove {capacity : UInt64} (h : b.Within capacity.toNat) {x : α}
    {answer : Answer α} (removed : (Request.exchange b (.remove x)).answer = .ok answer)
    {between : List (Request α)} (steady : ∀ request ∈ between, request.grows = false) (y : α) :
    (Request.exchange (Request.outcome (Request.exchange b (.remove x)).after between)
      (.append y)).answer = .ok .done := by
  have hwithin := h.exchange (.remove x)
  have hlt := b.length_remove_lt removed
  generalize (Request.exchange b (.remove x)).after = c at hwithin hlt ⊢
  obtain ⟨-, hbetween⟩ := Request.buffer_run between c hwithin.length_lt steady
  have hle := Request.length_plainOutcome_le between c.toList steady
  have hroom : (Request.outcome c between).isFull = false := by
    rw [Bool.eq_false_iff]
    intro hfull
    have hfilled := (hwithin.outcome between).isFull_iff.mp hfull
    have hbound := h.length
    rw [hbetween] at hfilled
    omega
  obtain ⟨happend, -, -⟩ := Request.buffer_append _ y hroom
  exact congrArg Vessel.finish happend

end Buffer

/-- How a buffer of this capacity has fared in a run of requests that took it from `start` to
`b`. -/
structure FixedRun (capacity : UInt64) (requests : List (Request α)) (start b : Buffer α) :
    Prop where
  count : b.len.toNat = b.toList.length
  bound : b.len ≤ capacity
  /-- The next request finds no room exactly if it is an append to a full buffer. -/
  refusal : ∀ request : Request α, (request.exchange b).answer = .error (.abort .full) ↔
    b.len = capacity ∧ ∃ x, request = .append x
  unchanged : ∀ request : Request α, (request.exchange b).answer = .error (.abort .full) →
    (request.exchange b).after = b
  /-- The requests that found room were answered as a plain sequence answers them that is empty at
  first, and its elements are those of the buffer. -/
  answers : (Request.accepted start requests).map Exchange.answer =
    Request.plainAnswers [] ((Request.accepted start requests).map Exchange.request)
  outcome : b.toList =
    Request.plainOutcome [] ((Request.accepted start requests).map Exchange.request)
  /-- Without the requests that found no room, growable storage answers and logs the same, and
  holds the same elements after each call. -/
  calls : Request.exchanges start.unbounded
      ((Request.accepted start requests).map Exchange.request) =
    (Request.accepted start requests).map Exchange.unbounded
  elements : (Request.outcome start.unbounded
      ((Request.accepted start requests).map Exchange.request)).toList = b.toList
  /-- After a successful removal the next append has room, whatever is asked in between. -/
  reopened : ∀ x answer between y, (Request.exchange b (.remove x)).answer = .ok answer →
    (∀ request ∈ between, request.grows = false) →
    (Request.exchange (Request.outcome (Request.exchange b (.remove x)).after between)
      (.append y)).answer = .ok .done

/-- After every run of requests, a buffer of fixed capacity that was empty at first has kept within
its capacity, and turns down an append exactly when it is full and then stays as it is. Without the
appends that were turned down it has answered as a plain sequence and holds what that holds, and has
done call for call what growable storage does. -/
theorem fixed_capacity_run (capacity : UInt64) (requests : List (Request α)) :
    FixedRun capacity requests (.empty (.fixed capacity.toNat))
      (Request.outcome (.empty (.fixed capacity.toNat)) requests) := by
  have hempty : (Buffer.empty (.fixed capacity.toNat) : Buffer α).Within capacity.toNat :=
    Buffer.within_empty capacity.toNat
  have hwithin := hempty.outcome requests
  obtain ⟨hanswers, hplain⟩ := hempty.accepted_plain requests
  obtain ⟨hcalls, houtcome⟩ :=
    Request.exchanges_unbounded requests (.empty (.fixed capacity.toNat))
  have hcount := hwithin.len_eq
  refine ⟨hcount, ?_, fun request => ?_, fun request hfull => ?_, hanswers, hplain, hcalls, ?_,
    fun x answer between y removed steady => hwithin.append_after_remove removed steady y⟩
  · rw [UInt64.le_iff_toNat_le, hcount]
    exact hwithin.length
  · rw [← UInt64.toNat_inj, hcount, ← hwithin.isFull_iff]
    exact request.perform_full_iff _
  · exact request.exchange_refused _ ((Exchange.isRefused_iff _).mpr hfull)
  · rw [houtcome]
    rfl

end

end SeqStore
