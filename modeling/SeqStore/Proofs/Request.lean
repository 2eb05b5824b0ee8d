import SeqStore.Proofs.Buffer
import SeqStore.Proofs.LinkedList
import SeqStore.Session.Vessel

/-!
Requests of the shared interface, put to any container that can grow and shrink, and what
they mean for a plain sequence. A list and a buffer both answer a request as the sequence of
their elements does, and are left with what the request leaves of that sequence.
-/

namespace SeqStore

inductive Request (α : Type) where
  | len
  | isEmpty
  | index (x : α)
  | contains (x : α)
  | get (idx : UInt64)
  | append (x : α)
  | remove (x : α)
  | set (idx : UInt64) (x : α)

namespace Request

variable {α γ : Type}

/-- The request as an action that takes a route. -/
def on (route : Route) : Request α → Action α
  | .len => .len route
  | .isEmpty => .isEmpty route
  | .index x => .index route x
  | .contains x => .contains route x
  | .get idx => .get route idx
  | .append x => .append route x
  | .remove x => .remove route x
  | .set idx x => .set route idx x

/-- Put the request to a container. -/
def perform [BEq α] [MutableContainer γ α] (c : γ) :
    Request α → Traced (Change Failure (Answer α) γ)
  | .len => return ⟨.ok (.count (Container.len c)), c⟩
  | .isEmpty => return ⟨.ok (.flag (Container.isEmpty c)), c⟩
  | .index x => return ⟨.ok (.position (← Container.index c x)), c⟩
  | .contains x => return ⟨.ok (.flag (← Container.contains c x)), c⟩
  | .get idx => return ⟨Vessel.access (← Container.get c idx), c⟩
  | .append x => do
      let change ← MutableContainer.append c x
      return ⟨Vessel.finish change.answer, change.after⟩
  | .remove x => do
      let change ← MutableContainer.remove c x
      return ⟨Vessel.access change.answer, change.after⟩
  | .set idx x => do
      let change ← MutableContainer.set c idx x
      return ⟨Vessel.access change.answer, change.after⟩

/-- The element of a sequence at `idx`, or the error with the position and the length. -/
def entry (xs : List α) (idx : UInt64) : Except AccessError α :=
  match xs[idx.toNat]? with
  | some x => .ok x
  | none => .error (.outOfRange idx xs.length.toUInt64)

/-- The first element of a sequence that matches `x`. -/
def firstMatch [BEq α] (xs : List α) (x : α) : Except AccessError α :=
  match xs.find? (· == x) with
  | some y => .ok y
  | none => .error .notFound

/-- What the request means for a plain sequence. -/
def plain [BEq α] (xs : List α) : Request α → Change Failure (Answer α) (List α)
  | .len => ⟨.ok (.count xs.length.toUInt64), xs⟩
  | .isEmpty => ⟨.ok (.flag xs.isEmpty), xs⟩
  | .index x => ⟨.ok (.position ((xs.findIdx? (· == x)).map Nat.toUInt64)), xs⟩
  | .contains x => ⟨.ok (.flag (xs.any (· == x))), xs⟩
  | .get idx => ⟨Vessel.access (entry xs idx), xs⟩
  | .append x => ⟨.ok .done, xs ++ [x]⟩
  | .remove x => ⟨Vessel.access (firstMatch xs x), xs.eraseP (· == x)⟩
  | .set idx x => ⟨Vessel.access (entry xs idx), xs.set idx.toNat x⟩

/-! ## Lists -/

section

variable {l : LinkedList α} {xs : List α}

theorem list_get (h : l.Holds xs) (idx : UInt64) : (l.get idx).value = entry xs idx := by
  rw [LinkedList.get_eq, h.elements, h.len_eq, entry]
  cases xs[idx.toNat]? <;> rfl

theorem list_set (h : l.Holds xs) (idx : UInt64) (x : α) :
    (l.set idx x).value.answer = entry xs idx := by
  rw [LinkedList.set_eq, h.elements, h.len_eq, entry]
  cases xs[idx.toNat]? <;> rfl

theorem list_remove [BEq α] (h : l.Holds xs) (x : α) :
    (l.remove x).value.answer = firstMatch xs x := by
  rw [firstMatch, List.find?_eq_bind_findIdx?_getElem?]
  cases hfind : xs.findIdx? (· == x) with
  | none =>
    rw [LinkedList.remove_absent l (by rw [h.elements, hfind])]
    rfl
  | some pos =>
    obtain ⟨hpos, -⟩ := List.findIdx?_eq_some_iff_getElem.mp hfind
    obtain ⟨y, hy, hremove⟩ := LinkedList.remove_found l (by rw [h.elements, hfind])
    have hword : pos.toUInt64.toNat = pos :=
      UInt64.toNat_ofNat_of_lt (Nat.lt_trans hpos h.length_lt)
    rw [h.elements, hword] at hy
    rw [hremove, Option.bind_some, hy]

theorem list_isEmpty (h : l.Holds xs) : l.isEmpty = xs.isEmpty := by
  cases xs with
  | nil => simp [LinkedList.isEmpty, h.len_eq]
  | cons x xs =>
    have hcount : l.len.toNat = xs.length + 1 := h.count
    have hzero : l.len ≠ 0 := by
      intro e
      rw [e] at hcount
      exact absurd hcount (by simp)
    simp [LinkedList.isEmpty, hzero]

/-- A list that holds `xs` answers a request as `xs` does, and then holds what the request
leaves of `xs`. -/
theorem list_step [BEq α] (request : Request α) (h : l.Holds xs)
    (short : (request.plain xs).after.length < UInt64.size) :
    (request.perform l).value.answer = (request.plain xs).answer ∧
      (request.perform l).value.after.Holds (request.plain xs).after := by
  cases request with
  | len =>
    refine ⟨?_, h⟩
    rw [plain, ← h.len_eq]
    rfl
  | isEmpty =>
    refine ⟨?_, h⟩
    rw [plain, ← list_isEmpty h]
    rfl
  | index x =>
    refine ⟨?_, h⟩
    rw [plain, ← h.elements, ← l.index_eq]
    rfl
  | contains x =>
    refine ⟨?_, h⟩
    rw [plain, ← h.elements, ← l.contains_eq]
    rfl
  | get idx => exact ⟨congrArg Vessel.access (list_get h idx), h⟩
  | append x => exact ⟨rfl, h.append x (by simpa [plain] using short)⟩
  | remove x => exact ⟨congrArg Vessel.access (list_remove h x), h.remove x⟩
  | set idx x => exact ⟨congrArg Vessel.access (list_set h idx x), h.set idx x⟩

end

/-! ## Buffers -/

section

variable (b : Buffer α)

theorem buffer_get (idx : UInt64) : (b.get idx).value = entry b.toList idx := by
  rw [Buffer.get_eq, Buffer.len_eq, entry]
  cases b.toList[idx.toNat]? <;> rfl

theorem buffer_set (idx : UInt64) (x : α) :
    (b.set idx x).value.answer = entry b.toList idx ∧
      (b.set idx x).value.after.toList = b.toList.set idx.toNat x ∧
      (b.set idx x).value.after.storage = b.storage := by
  rw [Buffer.set_eq, Buffer.len_eq, entry]
  cases hget : b.toList[idx.toNat]? with
  | none =>
    have hset : b.toList.set idx.toNat x = b.toList :=
      List.set_eq_of_length_le (by simpa using hget)
    exact ⟨rfl, hset.symm, rfl⟩
  | some old => exact ⟨rfl, rfl, rfl⟩

theorem buffer_remove [BEq α] (x : α) :
    (b.remove x).value.answer = firstMatch b.toList x ∧
      (b.remove x).value.after.toList = b.toList.eraseP (· == x) ∧
      (b.remove x).value.after.storage = b.storage := by
  rw [Buffer.remove_eq, firstMatch]
  cases hfind : b.toList.find? (· == x) with
  | none =>
    have herase : b.toList.eraseP (· == x) = b.toList :=
      List.eraseP_of_forall_not (List.find?_eq_none.mp hfind)
    exact ⟨rfl, herase.symm, rfl⟩
  | some y => exact ⟨rfl, rfl, rfl⟩

theorem buffer_append (x : α) (room : b.isFull = false) :
    (b.append x).value.answer = .ok () ∧ (b.append x).value.after.toList = b.toList ++ [x] ∧
      (b.append x).value.after.storage = b.storage := by
  rw [Buffer.append_eq, room]
  exact ⟨rfl, rfl, rfl⟩

theorem buffer_isEmpty (short : b.toList.length < UInt64.size) :
    (b.len == 0) = b.toList.isEmpty := by
  have hlen : b.len.toNat = b.toList.length := by
    rw [Buffer.len_eq]
    exact UInt64.toNat_ofNat_of_lt short
  cases hlist : b.toList with
  | nil => simp [Buffer.len_eq, hlist]
  | cons x xs =>
    have hzero : b.len ≠ 0 := by
      intro e
      rw [e, hlist] at hlen
      exact absurd hlen (by simp)
    simp [hzero]

theorem buffer_contains [BEq α] (x : α) (short : b.toList.length < UInt64.size) :
    Container.contains b x = ⟨b.toList.any (· == x), []⟩ := by
  change (do return (← Container.index b x).isSome) = _
  rw [b.index_eq x short, ← List.findIdx?_isSome, ← Option.isSome_map]
  rfl

/-- So does a buffer, with room for what is appended. -/
theorem buffer_step [BEq α] (request : Request α) (short : b.toList.length < UInt64.size)
    (room : (request.perform b).value.answer ≠ .error (.abort .full)) :
    (request.perform b).value.answer = (request.plain b.toList).answer ∧
      (request.perform b).value.after.toList = (request.plain b.toList).after ∧
      (request.perform b).value.after.storage = b.storage := by
  cases request with
  | len =>
    refine ⟨?_, rfl, rfl⟩
    rw [plain, ← b.len_eq]
    rfl
  | isEmpty =>
    refine ⟨?_, rfl, rfl⟩
    rw [plain, ← buffer_isEmpty b short]
    rfl
  | index x =>
    rw [perform, b.index_eq x short]
    exact ⟨rfl, rfl, rfl⟩
  | contains x =>
    rw [perform, buffer_contains b x short]
    exact ⟨rfl, rfl, rfl⟩
  | get idx => exact ⟨congrArg Vessel.access (buffer_get b idx), rfl, rfl⟩
  | append x =>
    cases hfull : b.isFull with
    | true =>
      refine absurd ?_ room
      change Vessel.finish (b.append x).value.answer = _
      rw [b.append_eq, hfull]
      rfl
    | false =>
      obtain ⟨hanswer, hafter⟩ := buffer_append b x hfull
      exact ⟨congrArg Vessel.finish hanswer, hafter⟩
  | remove x =>
    obtain ⟨hanswer, hafter⟩ := buffer_remove b x
    exact ⟨congrArg Vessel.access hanswer, hafter⟩
  | set idx x =>
    obtain ⟨hanswer, hafter⟩ := buffer_set b idx x
    exact ⟨congrArg Vessel.access hanswer, hafter⟩

end

/-! ## Actions -/

section

variable [Element α]

/-- An action of the shared interface is the request behind it. -/
theorem edit_on [MutableContainer γ α] (wrap : γ → Vessel α) (c : γ) (route : Route)
    (request : Request α) :
    Vessel.edit wrap c (request.on route) = do
      let change ← request.perform c
      return ⟨change.answer, wrap change.after⟩ := by
  cases request <;> simp [on, Vessel.edit, Vessel.read, Vessel.keep, perform]

/-- For a list both routes lead to the same request. -/
theorem actOnList_on (l : LinkedList α) (route : Route) (request : Request α) :
    Vessel.actOnList l (request.on route) = do
      let change ← request.perform l
      return ⟨change.answer, .list change.after⟩ := by
  cases route with
  | own =>
    cases request with
    | get idx => simp [on, Vessel.actOnList, Vessel.keep, perform, Container.get]
    | remove x => simp [on, Vessel.actOnList, perform, MutableContainer.remove]
    | set idx x => simp [on, Vessel.actOnList, perform, MutableContainer.set]
    | len | isEmpty | index x | contains x | append x => rfl
  | shared =>
    rw [← edit_on]
    cases request <;> rfl

end

end Request

end SeqStore
