import Mathlib.Algebra.Order.Group.Multiset
import Mathlib.Data.List.Perm.Basic
import Mathlib.Tactic.Abel
import SeqStore.Proofs.Trail

/-!
No element is lost or doubled. Over every run of actions on a list or a buffer that starts empty,
the elements taken in are those still there together with those handed out: removed, replaced,
or there when the container was cleared. As long as nothing is written in place, the elements
still there are also in the order in which they came in.
-/

namespace SeqStore

open scoped List

variable {α : Type}

/-! ## What comes in and what goes out -/

namespace Action

/-- Whether the action writes over an element. -/
def isWrite : Action α → Bool
  | .set _ _ _ | .setOrAbort _ _ => true
  | _ => false

/-- The elements that an action with this answer has put into a container. What a source has
delivered stays even if it breaks off. -/
def accepted : Action α → Except Failure (Answer α) → List α
  | .append _ x, .ok _ | .set _ _ x, .ok _ | .setOrAbort _ x, .ok _ => [x]
  | .extend source, .ok _ | .extend source, .error (.abort (.source _)) => source.delivered
  | _, _ => []

/-- The element that was asked to leave. -/
def removed : Action α → Except Failure (Answer α) → List α
  | .remove _ _, .ok (.element y) => [y]
  | _, _ => []

/-- The element that was written over. -/
def replaced : Action α → Except Failure (Answer α) → List α
  | .set _ _ _, .ok (.element old) | .setOrAbort _ _, .ok (.element old) => [old]
  | _, _ => []

/-- The elements of a container of `xs` that was cleared. -/
def dropped (xs : List α) : Action α → Except Failure (Answer α) → List α
  | .clear, .ok _ => xs
  | _, _ => []

end Action

namespace Deed

def accepted (d : Deed α) : List α := d.action.accepted d.answer

def removed (d : Deed α) : List α := d.action.removed d.answer

def replaced (d : Deed α) : List α := d.action.replaced d.answer

def dropped (d : Deed α) : List α := d.action.dropped d.before.elements d.answer

end Deed

/-! ## One action -/

/-- With this answer, an action that turns the elements `xs` into `ys` loses and doubles none. -/
structure Conserves (xs : List α) (action : Action α) (answer : Except Failure (Answer α))
    (ys : List α) : Prop where
  elements : xs ++ action.accepted answer ~
    ys ++ action.removed answer ++ action.replaced answer ++ action.dropped xs answer
  order : action.isWrite = false → ys.Sublist (xs ++ action.accepted answer)

/-- Nothing came in, nothing went out and nothing has changed. -/
theorem Conserves.same {xs : List α} {action : Action α} {answer : Except Failure (Answer α)}
    (haccepted : action.accepted answer = []) (hremoved : action.removed answer = [])
    (hreplaced : action.replaced answer = []) (hdropped : action.dropped xs answer = []) :
    Conserves xs action answer xs := by
  refine ⟨?_, fun _ => ?_⟩
  · simp [haccepted, hremoved, hreplaced, hdropped]
  · simp [haccepted]

private theorem perm_cons_eraseP {p : α → Bool} {xs : List α} {y : α}
    (h : xs.find? p = some y) : xs ~ y :: xs.eraseP p := by
  obtain ⟨hy, before, behind, rfl, hbefore⟩ := List.find?_eq_some_iff_append.mp h
  have hno : ∀ z ∈ before, ¬p z = true := fun z hz => by simpa using hbefore z hz
  rw [List.eraseP_append_right _ hno, List.eraseP_cons_of_pos hy]
  exact List.perm_middle

private theorem cons_perm_set {xs : List α} {i : Nat} {old : α} (h : xs[i]? = some old) (x : α) :
    x :: xs ~ old :: xs.set i x := by
  obtain ⟨hi, rfl⟩ := List.getElem?_eq_some_iff.mp h
  have hold : xs ~ xs[i] :: xs.eraseIdx i := (List.getElem_cons_eraseIdx_perm hi).symm
  have hnew : xs.set i x ~ x :: xs.eraseIdx i := List.set_perm_cons_eraseIdx hi x
  calc
    x :: xs ~ x :: xs[i] :: xs.eraseIdx i := hold.cons x
    _ ~ xs[i] :: x :: xs.eraseIdx i := .swap _ _ _
    _ ~ xs[i] :: xs.set i x := hnew.symm.cons _

/-- Where a write succeeds, the old element goes out as the new one comes in. -/
private theorem Conserves.write {xs : List α} {i : Nat} {x old : α} {action : Action α}
    {answer : Except Failure (Answer α)} (hget : xs[i]? = some old)
    (haccepted : action.accepted answer = [x]) (hremoved : action.removed answer = [])
    (hreplaced : action.replaced answer = [old]) (hdropped : action.dropped xs answer = [])
    (hwrite : action.isWrite = true) : Conserves xs action answer (xs.set i x) := by
  refine ⟨?_, fun hread => absurd (hread.symm.trans hwrite) Bool.false_ne_true⟩
  have hperm : xs ++ [x] ~ xs.set i x ++ [old] :=
    calc
      xs ++ [x] ~ x :: xs := List.perm_append_singleton x xs
      _ ~ old :: xs.set i x := cons_perm_set hget x
      _ ~ xs.set i x ++ [old] := (List.perm_append_singleton old _).symm
  simpa [haccepted, hremoved, hreplaced, hdropped] using hperm

/-- Where there is no place to write to, nothing is written. -/
private theorem Conserves.outside {xs : List α} {i : Nat} {x : α} {action : Action α}
    {answer : Except Failure (Answer α)} (hget : xs[i]? = none)
    (haccepted : action.accepted answer = []) (hremoved : action.removed answer = [])
    (hreplaced : action.replaced answer = []) (hdropped : action.dropped xs answer = []) :
    Conserves xs action answer (xs.set i x) := by
  have hset : xs.set i x = xs := List.set_eq_of_length_le (by simpa using hget)
  rw [hset]
  exact .same haccepted hremoved hreplaced hdropped

/-- What a request does to a plain sequence. -/
theorem Request.plain_conserves [BEq α] (xs : List α) (route : Route) (request : Request α) :
    Conserves xs (request.on route) (request.plain xs).answer (request.plain xs).after := by
  cases request with
  | len | isEmpty | index x | contains x | get idx => exact .same rfl rfl rfl rfl
  | append x =>
    refine ⟨?_, fun _ => .refl _⟩
    simp [on, plain, Action.accepted, Action.removed, Action.replaced, Action.dropped]
  | remove x =>
    rw [plain, firstMatch]
    cases hfind : xs.find? (· == x) with
    | none =>
      have herase : xs.eraseP (· == x) = xs :=
        List.eraseP_of_forall_not (List.find?_eq_none.mp hfind)
      rw [herase]
      exact .same rfl rfl rfl rfl
    | some y =>
      refine ⟨?_, fun _ => ?_⟩
      · have hperm : xs ~ xs.eraseP (· == x) ++ [y] :=
          (perm_cons_eraseP hfind).trans (List.perm_append_singleton y _).symm
        simpa [on, Vessel.access, Action.accepted, Action.removed, Action.replaced,
          Action.dropped] using hperm
      · simpa [on, Vessel.access, Action.accepted] using List.eraseP_sublist
  | set idx x =>
    rw [plain, entry]
    cases hget : xs[idx.toNat]? with
    | none => exact .outside hget rfl rfl rfl rfl
    | some old => exact .write hget rfl rfl rfl rfl rfl

section

variable [Element α]

/-- What an action does to a plain sequence. -/
theorem actOnSequence_conserves (xs : List α) (action : Action α) :
    Conserves xs action (actOnSequence xs action).answer (actOnSequence xs action).after := by
  cases action with
  | append route x => exact Request.plain_conserves xs route (.append x)
  | remove route x => exact Request.plain_conserves xs route (.remove x)
  | set route idx x => exact Request.plain_conserves xs route (.set idx x)
  | setOrAbort idx x =>
    rw [actOnSequence, Request.entry]
    cases hget : xs[idx.toNat]? with
    | none => exact .outside hget rfl rfl rfl rfl
    | some old => exact .write hget rfl rfl rfl rfl rfl
  | clear =>
    refine ⟨?_, fun _ => List.nil_sublist _⟩
    simp [actOnSequence, Action.accepted, Action.removed, Action.replaced, Action.dropped]
  | extend source =>
    have haccepted : (Action.extend source).accepted (actOnSequence xs (.extend source)).answer =
        source.delivered := by
      rw [actOnSequence]
      cases source.failure <;> rfl
    have hafter : (actOnSequence xs (.extend source)).after = xs ++ source.delivered := rfl
    constructor
    · simp [haccepted, hafter, Action.removed, Action.replaced, Action.dropped]
    · simp [haccepted, hafter]
  | _ => exact .same rfl rfl rfl rfl

/-- A buffer without room keeps what it has; otherwise it does as the sequence does. -/
theorem edit_conserves (b : Buffer α) (action : Action α) :
    ∃ b' : Buffer α, (Vessel.edit .buffer b action).value.after = .buffer b' ∧
      Conserves b.toList action (Vessel.edit .buffer b action).value.answer b'.toList := by
  cases action with
  | append route x =>
    refine ⟨(b.append x).value.after, rfl, ?_⟩
    cases hfull : b.isFull with
    | true =>
      change Conserves _ _ (Vessel.finish (b.append x).value.answer) (b.append x).value.after.toList
      rw [b.append_eq, hfull]
      exact .same rfl rfl rfl rfl
    | false =>
      obtain ⟨hanswer, hafter, -⟩ := Request.buffer_append b x hfull
      change Conserves _ _ (Vessel.finish (b.append x).value.answer) (b.append x).value.after.toList
      rw [hanswer, hafter]
      exact Request.plain_conserves b.toList route (.append x)
  | remove route x =>
    refine ⟨(b.remove x).value.after, rfl, ?_⟩
    obtain ⟨hanswer, hafter, -⟩ := Request.buffer_remove b x
    change Conserves _ _ (Vessel.access (b.remove x).value.answer) (b.remove x).value.after.toList
    rw [hanswer, hafter]
    exact Request.plain_conserves b.toList route (.remove x)
  | set route idx x =>
    refine ⟨(b.set idx x).value.after, rfl, ?_⟩
    obtain ⟨hanswer, hafter, -⟩ := Request.buffer_set b idx x
    change Conserves _ _ (Vessel.access (b.set idx x).value.answer) (b.set idx x).value.after.toList
    rw [hanswer, hafter]
    exact Request.plain_conserves b.toList route (.set idx x)
  | _ => exact ⟨b, rfl, .same rfl rfl rfl rfl⟩

end

/-! ## Runs -/

/-- A list that counts right or any buffer, with its elements. -/
inductive Vessel.Stores : Vessel α → List α → Prop
  | list {l : LinkedList α} {xs : List α} (h : l.Holds xs) : Stores (.list l) xs
  | buffer (b : Buffer α) : Stores (.buffer b) b.toList

theorem Vessel.Stores.elements_eq {v : Vessel α} {xs : List α} (h : v.Stores xs) :
    v.elements = xs := by
  cases h with
  | list hl => exact hl.elements
  | buffer b => rfl

section

variable [Element α]

theorem Vessel.Stores.deed {v : Vessel α} {xs : List α} (h : v.Stores xs) (action : Action α)
    (short : (v.deed action).after.Short) :
    ∃ ys, (v.deed action).after.Stores ys ∧ Conserves xs action (v.deed action).answer ys := by
  cases h with
  | list hl =>
    obtain ⟨l', hl', hdeed⟩ := Vessel.deed_list hl action short
    rw [hdeed]
    exact ⟨_, .list hl', actOnSequence_conserves xs action⟩
  | buffer b =>
    obtain ⟨b', hb', hconserves⟩ := edit_conserves b action
    refine ⟨b'.toList, ?_, hconserves⟩
    change (Vessel.edit .buffer b action).value.after.Stores _
    rw [hb']
    exact .buffer b'

/-- What was there and what came in is still there or has gone out. -/
private theorem trail_conserves (actions : List (Action α)) {v : Vessel α} {xs : List α}
    (h : v.Stores xs) (short : ∀ deed ∈ v.trail actions, deed.after.Short) :
    (xs + (v.trail actions).flatMap Deed.accepted : Multiset α) =
      (v.outcome actions).elements + (v.trail actions).flatMap Deed.removed +
        (v.trail actions).flatMap Deed.replaced + (v.trail actions).flatMap Deed.dropped := by
  induction actions generalizing v xs with
  | nil => simp [Vessel.trail, Vessel.outcome, h.elements_eq]
  | cons action rest ih =>
    obtain ⟨ys, hys, hconserves⟩ := h.deed action (short _ List.mem_cons_self)
    have hrest := ih hys (fun deed hmem => short deed (List.mem_cons_of_mem _ hmem))
    have hstep : (xs + (v.deed action).accepted : Multiset α) =
        ys + (v.deed action).removed + (v.deed action).replaced + (v.deed action).dropped := by
      have helements := Multiset.coe_eq_coe.mpr hconserves.elements
      rw [← h.elements_eq] at helements ⊢
      exact helements
    simp only [Vessel.trail, Vessel.outcome, List.flatMap_cons, ← Multiset.coe_add]
    rw [← add_assoc, hstep]
    -- what the step leaves is where the rest starts
    have hswap (a r p d rest : Multiset α) : a + r + p + d + rest = a + rest + r + p + d := by
      abel
    rw [hswap, hrest]
    abel

private theorem trail_keeps_order (actions : List (Action α)) {v : Vessel α} {xs : List α}
    (h : v.Stores xs) (short : ∀ deed ∈ v.trail actions, deed.after.Short)
    (unwritten : ∀ action ∈ actions, action.isWrite = false) :
    (v.outcome actions).elements.Sublist (xs ++ (v.trail actions).flatMap Deed.accepted) := by
  induction actions generalizing v xs with
  | nil => simp [Vessel.trail, Vessel.outcome, h.elements_eq]
  | cons action rest ih =>
    obtain ⟨ys, hys, hconserves⟩ := h.deed action (short _ List.mem_cons_self)
    have hrest := ih hys (fun deed hmem => short deed (List.mem_cons_of_mem _ hmem))
      (fun a ha => unwritten a (List.mem_cons_of_mem _ ha))
    have hstep : ys.Sublist (xs ++ (v.deed action).accepted) :=
      hconserves.order (unwritten action List.mem_cons_self)
    rw [Vessel.trail, Vessel.outcome, List.flatMap_cons, ← List.append_assoc]
    exact hrest.trans (hstep.append (.refl _))

/-- For every run of actions on a list or a buffer that starts empty: the elements ever taken in,
be it appended, delivered by a source or written in place, are those that are there in the end
and those that have gone, be it removed, replaced or cleared, each as often as it came. If
nothing was written in place, the elements there in the end stand in the order in which they
came. -/
theorem elements_conserved (start : Vessel α)
    (fresh : start = .list .empty ∨ ∃ storage, start = .buffer (.empty storage))
    (actions : List (Action α)) (short : ∀ deed ∈ start.trail actions, deed.after.Short) :
    ((start.trail actions).flatMap Deed.accepted : Multiset α) =
        (start.outcome actions).elements + (start.trail actions).flatMap Deed.removed +
          (start.trail actions).flatMap Deed.replaced +
          (start.trail actions).flatMap Deed.dropped ∧
      ((∀ action ∈ actions, action.isWrite = false) →
        (start.outcome actions).elements.Sublist ((start.trail actions).flatMap Deed.accepted)) := by
  have hstores : start.Stores [] := by
    rcases fresh with rfl | ⟨storage, rfl⟩
    · exact .list LinkedList.holds_empty
    · exact .buffer (.empty storage)
  refine ⟨?_, fun unwritten => ?_⟩
  · simpa using trail_conserves actions hstores short
  · simpa using trail_keeps_order actions hstores short unwritten

end

/-- Numbers come in, one by one and from a source that breaks off; some leave, two are written
over and the rest is cleared. -/
def changefulRun : List (Action Int64) :=
  [.append .own 7, .extend (.breakAt "boom" 2 [8, 7, 9]), .remove .own 7, .set .shared 0 5,
    .setOrAbort 1 8, .setOrAbort 4 3, .clear, .append .shared 6]

theorem elements_conserved_changefulRun :
    ((Vessel.list .empty).trail changefulRun).flatMap Deed.accepted = [7, 8, 7, 5, 8, 6] ∧
      (((Vessel.list .empty).trail changefulRun).flatMap Deed.accepted : Multiset Int64) =
        ((Vessel.list .empty).outcome changefulRun).elements +
          ((Vessel.list .empty).trail changefulRun).flatMap Deed.removed +
          ((Vessel.list .empty).trail changefulRun).flatMap Deed.replaced +
          ((Vessel.list .empty).trail changefulRun).flatMap Deed.dropped := by
  refine ⟨by decide +kernel, (elements_conserved (.list .empty) (.inl rfl) changefulRun ?_).1⟩
  decide +kernel

end SeqStore
