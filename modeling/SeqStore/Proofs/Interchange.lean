import Mathlib.Data.List.Forall2
import SeqStore.Proofs.Request

/-!
Lists and buffers stand in for one another behind the shared interface. Whatever is asked of
them, they answer alike, keep the same elements and turn down the same positions; only what
they note about a change, and the words for a needle that nothing matches, differ.
-/

namespace SeqStore

/-- Whether the event turns a position down. -/
def Event.isRejection : Event → Bool
  | .rejected _ _ => true
  | _ => false

/-- A request to a container with all that came of it. -/
structure Exchange (γ α : Type) where
  request : Request α
  answer : Except Failure (Answer α)
  log : List Event
  after : γ

namespace Request

variable {α γ : Type} [BEq α]

def exchange [MutableContainer γ α] (c : γ) (request : Request α) : Exchange γ α :=
  let step := request.perform c
  ⟨request, step.value.answer, step.log, step.value.after⟩

/-- Put one request after the other to a container. -/
def exchanges [MutableContainer γ α] (c : γ) : List (Request α) → List (Exchange γ α)
  | [] => []
  | request :: rest => request.exchange c :: exchanges (request.exchange c).after rest

end Request

/-- The same request to a list and to a buffer comes to the same. -/
structure Exchange.Agrees {α : Type} (list : Exchange (LinkedList α) α)
    (buffer : Exchange (Buffer α) α) : Prop where
  request : list.request = buffer.request
  answer : list.answer = buffer.answer
  elements : list.after.toList = buffer.after.toList
  rejections : list.log.filter Event.isRejection = buffer.log.filter Event.isRejection
  absence : ∀ x failure, list.request = .remove x → list.answer = .error failure →
    ∃ len, list.log = [.absentFromList len] ∧ buffer.log = [.absentFromBuffer len]

namespace Request

variable {α : Type} [BEq α]

/-- The positions that a sequence turns down. -/
def rejections (xs : List α) : Request α → List Event
  | .get idx | .set idx _ =>
      match xs[idx.toNat]? with
      | some _ => []
      | none => [.rejected idx xs.length.toUInt64]
  | _ => []

theorem list_rejections (request : Request α) {l : LinkedList α} {xs : List α}
    (h : l.Holds xs) :
    (request.perform l).log.filter Event.isRejection = request.rejections xs := by
  cases request with
  | len | isEmpty | index x | contains x | append x => rfl
  | get idx =>
    change ((l.get idx).log ++ []).filter _ = _
    rw [LinkedList.get_eq, h.elements, h.len_eq, rejections]
    cases xs[idx.toNat]? <;> rfl
  | remove x =>
    change ((l.remove x).log ++ []).filter _ = _
    cases hfind : l.toList.findIdx? (· == x) with
    | none =>
      rw [LinkedList.remove_absent l hfind]
      rfl
    | some pos =>
      obtain ⟨y, -, hremove⟩ := LinkedList.remove_found l hfind
      rw [hremove]
      rfl
  | set idx x =>
    change ((l.set idx x).log ++ []).filter _ = _
    rw [LinkedList.set_eq, h.elements, h.len_eq, rejections]
    cases xs[idx.toNat]? <;> rfl

theorem buffer_rejections (request : Request α) (b : Buffer α)
    (short : b.toList.length < UInt64.size) :
    (request.perform b).log.filter Event.isRejection = request.rejections b.toList := by
  cases request with
  | len | isEmpty => rfl
  | index x =>
    rw [perform, b.index_eq x short]
    rfl
  | contains x =>
    rw [perform, buffer_contains b x short]
    rfl
  | get idx =>
    change ((b.get idx).log ++ []).filter _ = _
    rw [Buffer.get_eq, b.len_eq, rejections]
    cases b.toList[idx.toNat]? <;> rfl
  | append x =>
    change ((b.append x).log ++ []).filter _ = _
    rw [Buffer.append_eq]
    cases b.isFull <;> rfl
  | remove x =>
    change ((b.remove x).log ++ []).filter _ = _
    rw [Buffer.remove_eq]
    cases b.toList.find? (· == x) <;> rfl
  | set idx x =>
    change ((b.set idx x).log ++ []).filter _ = _
    rw [Buffer.set_eq, b.len_eq, rejections]
    cases b.toList[idx.toNat]? <;> rfl

/-- A needle that nothing matches is noted once by either, with the same length. -/
theorem absence_noted {l : LinkedList α} {b : Buffer α} (h : l.Holds b.toList) {x : α}
    {failure : Failure} (hfail : (perform l (.remove x)).value.answer = .error failure) :
    (perform l (.remove x)).log = [.absentFromList l.len] ∧
      (perform b (.remove x)).log = [.absentFromBuffer l.len] := by
  change Vessel.access (l.remove x).value.answer = _ at hfail
  change (l.remove x).log ++ [] = _ ∧ (b.remove x).log ++ [] = _
  cases hfind : l.toList.findIdx? (· == x) with
  | none =>
    have hnone : b.toList.find? (· == x) = none := by
      rw [← h.elements, List.find?_eq_bind_findIdx?_getElem?, hfind]
      rfl
    rw [LinkedList.remove_absent l hfind, Buffer.remove_eq, hnone, h.len_eq, b.len_eq]
    exact ⟨rfl, rfl⟩
  | some pos =>
    obtain ⟨y, -, hremove⟩ := LinkedList.remove_found l hfind
    rw [hremove] at hfail
    cases hfail

/-- Only an append finds no room, and only in a buffer that is full. -/
theorem perform_full_iff (request : Request α) (b : Buffer α) :
    (request.perform b).value.answer = .error (.abort .full) ↔
      b.isFull = true ∧ ∃ x, request = .append x := by
  have haccess (r : Except AccessError α) : Vessel.access r ≠ .error (.abort .full) := by
    cases r <;> simp [Vessel.access]
  cases request with
  | len | isEmpty | index x | contains x => exact ⟨nofun, nofun⟩
  | get idx | remove x | set idx x => exact ⟨fun h => absurd h (haccess _), nofun⟩
  | append x =>
    change Vessel.finish (b.append x).value.answer = _ ↔ _
    rw [b.append_eq]
    cases b.isFull <;> simp [Vessel.finish]

/-- Storage without a fixed capacity is never full. -/
theorem perform_ne_full (request : Request α) {b : Buffer α}
    (growing : ∀ capacity, b.storage ≠ .fixed capacity) :
    (request.perform b).value.answer ≠ .error (.abort .full) := by
  have hfull : b.isFull = false := by
    unfold Buffer.isFull
    cases hstorage : b.storage with
    | fixed capacity => exact absurd hstorage (growing capacity)
    | growable | small capacity | tiny capacity => rfl
  intro h
  obtain ⟨hisFull, -⟩ := (request.perform_full_iff b).mp h
  exact Bool.false_ne_true (hfull.symm.trans hisFull)

theorem exchange_agrees (request : Request α) {l : LinkedList α} {b : Buffer α}
    (h : l.Holds b.toList)
    (room : (request.exchange b).answer ≠ .error (.abort .full))
    (short : (request.exchange b).after.toList.length < UInt64.size) :
    (request.exchange l).Agrees (request.exchange b) ∧
      (request.exchange l).after.Holds (request.exchange b).after.toList ∧
      (request.exchange b).after.storage = b.storage := by
  obtain ⟨hbanswer, hbafter, hstorage⟩ := buffer_step b request h.length_lt room
  obtain ⟨hlanswer, hlafter⟩ := list_step request h (by rw [← hbafter]; exact short)
  rw [← hbafter] at hlafter
  refine ⟨⟨rfl, hlanswer.trans hbanswer.symm, hlafter.elements, ?_, ?_⟩, hlafter, hstorage⟩
  · exact (list_rejections request h).trans (buffer_rejections request b h.length_lt).symm
  · intro x failure hrequest hfail
    change request = .remove x at hrequest
    subst hrequest
    exact ⟨l.len, absence_noted h hfail⟩

end Request

/-- Put the same requests, in any number and order, to a list and to a buffer that hold the
same elements, and they come to the same one by one. Only fixed storage has to have room.
The length of a buffer is a word, so a buffer never holds more than a word can count. -/
theorem list_and_buffer_agree {α : Type} [BEq α] (requests : List (Request α))
    (l : LinkedList α) (b : Buffer α) (reachable : l.Reachable) (same : l.toList = b.toList)
    (room : ∀ capacity, b.storage = .fixed capacity →
      ∀ e ∈ Request.exchanges b requests, e.answer ≠ .error (.abort .full))
    (short : ∀ e ∈ Request.exchanges b requests, e.after.toList.length < UInt64.size) :
    List.Forall₂ Exchange.Agrees (Request.exchanges l requests)
      (Request.exchanges b requests) := by
  induction requests generalizing l b with
  | nil => exact .nil
  | cons request rest ih =>
    have hl : l.Holds b.toList := same ▸ reachable.holds
    have hroom : (request.exchange b).answer ≠ .error (.abort .full) := by
      by_cases hfixed : ∃ capacity, b.storage = .fixed capacity
      · obtain ⟨capacity, hcapacity⟩ := hfixed
        exact room capacity hcapacity _ (by simp [Request.exchanges])
      · exact request.perform_ne_full (fun capacity e => hfixed ⟨capacity, e⟩)
    have hshort : (request.exchange b).after.toList.length < UInt64.size :=
      short _ (by simp [Request.exchanges])
    obtain ⟨hagrees, hafter, hstorage⟩ := request.exchange_agrees hl hroom hshort
    -- the list stays a reachable one and the storage is the same, so both conditions carry over
    refine .cons hagrees (ih _ _ hafter.reachable hafter.elements ?_ ?_)
    · intro capacity hcapacity e he
      exact room capacity (hstorage ▸ hcapacity) e (by simp [Request.exchanges, he])
    · intro e he
      exact short e (by simp [Request.exchanges, he])

/-- Fixed storage of two places gives one up and is filled again. -/
theorem list_and_buffer_agree_at_capacity :
    List.Forall₂ Exchange.Agrees
      (Request.exchanges (LinkedList.ofList [5, 6]).value
        [.remove (9 : UInt8), .remove 5, .append 7, .set 4 1, .index 7])
      (Request.exchanges (⟨.fixed 2, #[5, 6]⟩ : Buffer UInt8)
        [.remove 9, .remove 5, .append 7, .set 4 1, .index 7]) := by
  apply list_and_buffer_agree
  · exact .ofList [5, 6] (by decide)
  · rfl
  · intro capacity _ e he
    simp only [Request.exchanges, List.mem_cons, List.not_mem_nil, or_false] at he
    rcases he with rfl | rfl | rfl | rfl | rfl
    all_goals
      cbv
      simp
  · intro e he
    simp only [Request.exchanges, List.mem_cons, List.not_mem_nil, or_false] at he
    rcases he with rfl | rfl | rfl | rfl | rfl <;> decide +kernel

end SeqStore
