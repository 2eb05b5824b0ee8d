import SeqStore.Proofs.Refinement

/-!
Runs of actions on one container. Every action leaves a deed: what the container was, what was
answered, what was noted, and what the container is now. A list stays a list all along, and what
it notes about an action can be read off the sequence it holds.
-/

namespace SeqStore

variable {α : Type}

/-- An action on a container, with all that came of it. -/
structure Deed (α : Type) where
  before : Vessel α
  action : Action α
  answer : Except Failure (Answer α)
  log : List Event
  after : Vessel α

namespace Vessel

/-- The elements in their order. The empty places of a gapped sequence have none. -/
def elements : Vessel α → List α
  | .list l => l.toList
  | .tuple t => t.toList
  | .gapped g => g.places.toList.filterMap id
  | .buffer b => b.toList

/-- No list has more elements than its counter can count. -/
def Short : Vessel α → Prop
  | .list l => l.toList.length < UInt64.size
  | _ => True

instance : (v : Vessel α) → Decidable v.Short
  | .list l => inferInstanceAs (Decidable (l.toList.length < UInt64.size))
  | .tuple _ | .gapped _ | .buffer _ => inferInstanceAs (Decidable True)

section

variable [Element α]

def deed (v : Vessel α) (action : Action α) : Deed α :=
  let step := v.act action
  ⟨v, action, step.value.answer, step.log, step.value.after⟩

/-- One action after the other. -/
def trail (v : Vessel α) : List (Action α) → List (Deed α)
  | [] => []
  | action :: rest => v.deed action :: (v.deed action).after.trail rest

/-- What the actions leave of the container. -/
def outcome (v : Vessel α) : List (Action α) → Vessel α
  | [] => v
  | action :: rest => (v.deed action).after.outcome rest

end

end Vessel

/-! ## What a list notes -/

/-- What a list that holds `xs` notes about a request. -/
def Request.notes [BEq α] (xs : List α) : Request α → List Event
  | .append _ => [.appended (xs.length + 1).toUInt64]
  | .remove x =>
      match xs.findIdx? (· == x) with
      | some pos => [.removed pos.toUInt64 (xs.length - 1).toUInt64]
      | none => [.absentFromList xs.length.toUInt64]
  | .get idx | .set idx _ =>
      match xs[idx.toNat]? with
      | some _ => []
      | none => [.rejected idx xs.length.toUInt64]
  | .len | .isEmpty | .index _ | .contains _ => []

/-- What a list that holds `xs` notes about an action. -/
def Action.notes [BEq α] (xs : List α) : Action α → List Event
  | .append _ x => (Request.append x).notes xs
  | .remove _ x => (Request.remove x).notes xs
  | .get _ idx | .getOrAbort idx => (Request.get idx).notes xs
  | .set _ idx x | .setOrAbort idx x => (Request.set idx x).notes xs
  | .clear => [.cleared xs.length.toUInt64]
  | .extend source =>
      match source.failure with
      | some _ => []
      | none => [.extended source.delivered.length.toUInt64
          (xs.length + source.delivered.length).toUInt64]
  | _ => []

section

variable {l : LinkedList α} {xs : List α}

theorem Request.list_notes [BEq α] (request : Request α) (h : l.Holds xs) :
    (request.perform l).log = request.notes xs := by
  cases request with
  | len | isEmpty | index x | contains x => rfl
  | get idx =>
    change (l.get idx).log ++ [] = _
    rw [l.get_eq, h.elements, h.len_eq, notes]
    cases xs[idx.toNat]? <;> rfl
  | append x =>
    change (l.append x).log ++ [] ++ [] = _
    rw [l.append_eq x (by rw [h.count, h.elements]), h.len_eq, notes]
    simp
  | remove x =>
    change (l.remove x).log ++ [] = _
    cases hfind : xs.findIdx? (· == x) with
    | none =>
      rw [l.remove_absent (by rw [h.elements, hfind]), h.len_eq, notes, hfind]
      rfl
    | some pos =>
      obtain ⟨hpos, -⟩ := List.findIdx?_eq_some_iff_getElem.mp hfind
      have hone : 1 ≤ xs.length := by omega
      have hlen : l.len - 1 = (xs.length - 1).toUInt64 := by
        rw [h.len_eq]
        exact (UInt64.ofNat_sub hone).symm
      obtain ⟨y, -, hremove⟩ := l.remove_found (by rw [h.elements, hfind])
      rw [hremove, hlen, notes, hfind]
      rfl
  | set idx x =>
    change (l.set idx x).log ++ [] = _
    rw [l.set_eq, h.elements, h.len_eq, notes]
    cases xs[idx.toNat]? <;> rfl

variable [Element α]

private theorem actOnList_request_log (h : l.Holds xs) (route : Route) (request : Request α) :
    (Vessel.actOnList l (request.on route)).log = request.notes xs := by
  rw [Request.actOnList_on, ← request.list_notes h]
  simp

/-- What a list notes depends on the sequence it holds and on nothing else. -/
theorem actOnList_log (h : l.Holds xs) (action : Action α) :
    (Vessel.actOnList l action).log = action.notes xs := by
  cases action with
  | len route => exact actOnList_request_log h route .len
  | isEmpty route => exact actOnList_request_log h route .isEmpty
  | index route x => exact actOnList_request_log h route (.index x)
  | contains route x => exact actOnList_request_log h route (.contains x)
  | get route idx => exact actOnList_request_log h route (.get idx)
  | append route x => exact actOnList_request_log h route (.append x)
  | remove route x => exact actOnList_request_log h route (.remove x)
  | set route idx x => exact actOnList_request_log h route (.set idx x)
  | getOrAbort idx =>
    rw [Action.notes, ← Request.list_notes _ h]
    simp [Vessel.actOnList, LinkedList.getOrAbort, Request.perform, Container.get]
  | setOrAbort idx x =>
    rw [Action.notes, ← Request.list_notes _ h]
    simp [Vessel.actOnList, LinkedList.setOrAbort, Request.perform, MutableContainer.set]
  | clear =>
    rw [Action.notes, ← h.len_eq]
    rfl
  | extend source =>
    change (l.extend source).log ++ [] = _
    rw [l.extend_eq, h.len_eq, Action.notes]
    cases source.failure <;> simp
  | copyOut | format spec | formatInto limit | writeLine | writeLineInto limit | print
  | toJson | view | release | feed => rfl

/-- Only growing can make a list too long to count, and then the list itself shows it. -/
private theorem short_after (h : l.Holds xs) (action : Action α)
    (short : ((Vessel.list l).deed action).after.Short) :
    (actOnSequence xs action).after.length < UInt64.size := by
  have hshort := h.length_lt
  cases action with
  | append route x =>
    have happend : (l.append x).value.toList.length < UInt64.size := by
      cases route <;> exact short
    rw [l.append_eq x (by rw [h.count, h.elements]), h.elements] at happend
    simpa [LinkedList.toList, actOnSequence, Request.plain] using happend
  | extend source =>
    have hextend : (l.extend source).value.after.toList.length < UInt64.size := short
    rw [l.extend_eq, h.elements] at hextend
    cases hfailure : source.failure <;>
      simpa [LinkedList.toList, actOnSequence, hfailure] using hextend
  | remove route x =>
    exact Nat.lt_of_le_of_lt List.length_eraseP_le hshort
  | set route idx x =>
    simpa [actOnSequence, Request.plain] using hshort
  | setOrAbort idx x =>
    simpa [actOnSequence] using hshort
  | clear => exact (by decide : 0 < UInt64.size)
  | _ => exact hshort

/-- A deed on a list is what the action comes to on the sequence it holds. -/
theorem Vessel.deed_list (h : l.Holds xs) (action : Action α)
    (short : ((Vessel.list l).deed action).after.Short) :
    ∃ l' : LinkedList α, l'.Holds (actOnSequence xs action).after ∧
      (Vessel.list l).deed action =
        ⟨.list l, action, (actOnSequence xs action).answer, action.notes xs, .list l'⟩ := by
  obtain ⟨l', hl', hact⟩ := actOnList_step h action (short_after h action short)
  refine ⟨l', hl', ?_⟩
  rw [← actOnList_log h action]
  simp only [Vessel.deed, Vessel.act, hact]

end

end SeqStore
