import Mathlib.Logic.Relation
import SeqStore.Element.Caseless
import SeqStore.Proofs.Extension

/-!
The walks of a list, step by step. Searching, reading, writing and looking up a link all follow
the chain from its head and count the nodes they pass; they differ in what ends them. On any
chain an operation gives what lies at the place where its walk stops. In the lists that operations
can build the counter of the list is right, and so is that of every walk at every step: no walk
counts beyond the length, and none runs into the end of the chain before it has made its steps.
-/

namespace SeqStore

variable {α : Type}

/-! ## Walks -/

/-- Where a walk stands: on a link, with so many nodes counted. -/
structure Place (α : Type) where
  link : Chain α
  count : UInt64

namespace Place

/-- What a walk has counted, if it stands on a node. -/
def position? : Place α → Option UInt64
  | ⟨.empty, _⟩ => none
  | ⟨.node _ _, count⟩ => some count

/-- The element of the node that a walk stands on. -/
def element? : Place α → Option α
  | ⟨.empty, _⟩ => none
  | ⟨.node data _, _⟩ => some data

theorem position?_eq_some_iff {p : Place α} {pos : UInt64} :
    p.position? = some pos ↔ ∃ data next, p = ⟨.node data next, pos⟩ := by
  obtain ⟨link, count⟩ := p
  cases link <;> simp [position?]

end Place

namespace Chain

/-- Ends a walk at an element equal to `x`. -/
def onMatch [BEq α] (x : α) : UInt64 → α → Bool := fun _ data => data == x

/-- Ends a walk that has counted `idx` nodes. -/
def onCount (idx : UInt64) : UInt64 → α → Bool := fun count _ => count == idx

/-- One step of a walk: over a node that does not end it, with one more counted. -/
inductive Step (ends : UInt64 → α → Bool) : Place α → Place α → Prop
  | over {data : α} {next : Chain α} {count : UInt64} (goesOn : ends count data = false) :
      Step ends ⟨.node data next, count⟩ ⟨next, count + 1⟩

/-- The places that a walk along `c` comes to. -/
def Visits (ends : UInt64 → α → Bool) (c : Chain α) : Place α → Prop :=
  Relation.ReflTransGen (Step ends) ⟨c, 0⟩

/-- The place where a walk stops that has counted `count` nodes: a node that ends it, or else
the last, empty link. -/
def stop (ends : UInt64 → α → Bool) (count : UInt64) : Chain α → Place α
  | .empty => ⟨.empty, count⟩
  | .node data next =>
      if ends count data then ⟨.node data next, count⟩ else next.stop ends (count + 1)

variable {ends : UInt64 → α → Bool} {c next : Chain α} {count : UInt64} {data : α}

theorem stop_of_ends (h : ends count data = true) :
    (node data next).stop ends count = ⟨.node data next, count⟩ := if_pos h

theorem stop_of_goesOn (h : ends count data = false) :
    (node data next).stop ends count = next.stop ends (count + 1) := by
  simp [stop, h]

private theorem steps_stop (c : Chain α) (count : UInt64) :
    Relation.ReflTransGen (Step ends) ⟨c, count⟩ (c.stop ends count) := by
  induction c generalizing count with
  | empty => exact .refl
  | node data next ih =>
    cases h : ends count data with
    | true => rw [stop_of_ends h]
    | false =>
      rw [stop_of_goesOn h]
      exact .head (.over h) (ih (count + 1))

theorem visits_stop (c : Chain α) : c.Visits ends (c.stop ends 0) := steps_stop c 0

/-- A walk that stops on a node has been ended there. -/
theorem ends_of_stop {pos : UInt64} (h : c.stop ends count = ⟨.node data next, pos⟩) :
    ends pos data = true := by
  induction c generalizing count with
  | empty => cases h
  | node first rest ih =>
    cases hends : ends count first with
    | true =>
      rw [stop_of_ends hends] at h
      cases h
      exact hends
    | false =>
      rw [stop_of_goesOn hends] at h
      exact ih h

/-! ## What lies where a walk stops -/

theorem indexFrom_eq_stop [BEq α] (x : α) (count : UInt64) (c : Chain α) :
    c.indexFrom x count = (c.stop (onMatch x) count).position? := by
  induction c generalizing count with
  | empty => rfl
  | node data next ih =>
    cases h : data == x with
    | true =>
      rw [stop_of_ends h]
      exact if_pos h
    | false =>
      rw [stop_of_goesOn h, ← ih, indexFrom, h]
      rfl

theorem onCount_eq_false {idx : UInt64} (h : count ≠ idx) : onCount idx count data = false :=
  beq_false_of_ne h

theorem onCount_self (count : UInt64) (data : α) : onCount count count data = true :=
  beq_self_eq_true count

theorem getFrom_eq_stop (idx count : UInt64) (c : Chain α) :
    c.getFrom idx count = (c.stop (onCount idx) count).element? := by
  induction c generalizing count with
  | empty => rfl
  | node data next ih =>
    by_cases h : count = idx
    · subst h
      rw [stop_of_ends (onCount_self count data)]
      exact if_pos rfl
    · rw [stop_of_goesOn (onCount_eq_false h), ← ih]
      exact if_neg h

theorem setFrom_eq_stop (idx : UInt64) (x : α) (count : UInt64) (c : Chain α) :
    (c.setFrom idx x count).map Prod.fst = (c.stop (onCount idx) count).element? := by
  rw [setFrom_eq, ← getFrom_eq_stop, getFrom_eq, Option.map_map]
  exact Option.map_id'

/-- A walk to a link passes nodes that stay in front, and what becomes of the link it stops on is
put behind them. -/
theorem atLink_eq_stop (idx count : UInt64) (c : Chain α) :
    ∃ passed : Chain α, c = passed.joinEnd (c.stop (onCount idx) count).link ∧
      ∀ (β : Type) (f : Chain α → β × Chain α), c.atLink f (idx - count).toNat =
        ((f (c.stop (onCount idx) count).link).1,
          passed.joinEnd (f (c.stop (onCount idx) count).link).2) := by
  induction c generalizing count with
  | empty =>
    refine ⟨.empty, rfl, fun β f => ?_⟩
    cases (idx - count).toNat <;> rfl
  | node data next ih =>
    by_cases h : count = idx
    · subst h
      rw [stop_of_ends (onCount_self count data), UInt64.sub_self]
      exact ⟨.empty, rfl, fun β f => rfl⟩
    · obtain ⟨passed, hjoin, hwork⟩ := ih (count + 1)
      rw [stop_of_goesOn (onCount_eq_false h), sub_succ h]
      refine ⟨.node data passed, congrArg (node data) hjoin, fun β f => ?_⟩
      rw [atLink, hwork]
      rfl

end Chain

/-! ## The counter of a walk -/

theorem toNat_sub_add {m n : UInt64} (h : n.toNat ≤ m.toNat) :
    (m - n).toNat + n.toNat = m.toNat := by
  rw [UInt64.toNat_sub_of_le m n (UInt64.le_iff_toNat_le.mpr h)]
  exact Nat.sub_add_cancel h

/-- The place lies in `c`, behind as many of its nodes as are counted. -/
structure Place.Within (p : Place α) (c : Chain α) : Prop where
  link : p.link.toList = c.toList.drop p.count.toNat
  count : p.count.toNat ≤ c.toList.length

namespace Chain

variable {ends : UInt64 → α → Bool} {c : Chain α} {p q : Place α}

theorem within_start (c : Chain α) : (⟨c, 0⟩ : Place α).Within c := ⟨rfl, Nat.zero_le _⟩

/-- There is one place for every count. -/
theorem within_unique (hp : p.Within c) (hq : q.Within c) (h : p.count = q.count) : p = q := by
  have hlink : p.link = q.link := toList_inj (by rw [hp.link, hq.link, h])
  cases p
  cases q
  simp_all

/-- A step is made over a node, which has not been counted yet. -/
theorem Step.count_lt (h : Step ends p q) (hp : p.Within c) : p.count.toNat < c.toList.length := by
  obtain ⟨-⟩ := h
  have hlength := congrArg List.length hp.link
  rw [toList, List.length_cons, List.length_drop] at hlength
  omega

theorem Step.count_ne {idx : UInt64} (h : Step (onCount idx) p q) : p.count ≠ idx := by
  obtain ⟨goesOn⟩ := h
  exact ne_of_beq_false goesOn

section

variable (short : c.toList.length < UInt64.size)
include short

theorem Step.count_eq (h : Step ends p q) (hp : p.Within c) :
    q.count.toNat = p.count.toNat + 1 := by
  have hlt := h.count_lt hp
  obtain ⟨-⟩ := h
  exact toNat_succ (by dsimp only at hlt; omega)

theorem Step.within (h : Step ends p q) (hp : p.Within c) : q.Within c := by
  have hlt := h.count_lt hp
  have hcount := h.count_eq short hp
  refine ⟨?_, by omega⟩
  obtain ⟨-⟩ := h
  rw [hcount, ← List.tail_drop, ← hp.link]
  rfl

theorem Visits.within (h : c.Visits ends p) : p.Within c := by
  induction h with
  | refl => exact within_start c
  | tail _ step ih => exact step.within short ih

/-- A walk that is to count `idx` nodes counts no more. -/
theorem Visits.count_le {idx : UInt64} (h : c.Visits (onCount idx) p) : p.count ≤ idx := by
  induction h with
  | refl => exact UInt64.zero_le
  | tail visits step ih =>
    -- no step is made at `idx` itself, so the counter was below it
    have hcount := step.count_eq short (Visits.within short visits)
    have hne := mt UInt64.toNat_inj.mp step.count_ne
    rw [UInt64.le_iff_toNat_le] at ih ⊢
    omega

/-- Every place in a chain is where the walk stops that is to count as many nodes. -/
theorem stop_onCount (hp : p.Within c) : c.stop (onCount p.count) 0 = p := by
  have hvisits : c.Visits (onCount p.count) (c.stop (onCount p.count) 0) := visits_stop c
  have hwithin := hvisits.within short
  have hle := UInt64.le_iff_toNat_le.mp (hvisits.count_le short)
  refine within_unique hwithin hp ?_
  cases hstop : c.stop (onCount p.count) 0 with
  | mk link count =>
    rw [hstop] at hwithin hle
    cases link with
    | empty =>
      -- the chain has come to its end, so that no place has more nodes before it
      have hend : c.toList.length ≤ count.toNat := List.drop_eq_nil_iff.mp hwithin.link.symm
      exact UInt64.toNat_inj.mp (Nat.le_antisymm hle (Nat.le_trans hp.count hend))
    | node data next =>
      have hended : onCount p.count count data = true := ends_of_stop hstop
      exact eq_of_beq hended

end

end Chain

/-! ## The walks of a list -/

namespace LinkedList

open Chain

variable {l : LinkedList α} {xs : List α}

/-- The operations that walk along a list, by the places where their walks stop. -/
structure Walks [BEq α] (l : LinkedList α) : Prop where
  index : ∀ x, l.index x = (l.head.stop (onMatch x) 0).position?
  get : ∀ idx, (l.get idx).value.toOption = (l.head.stop (onCount idx) 0).element?
  set : ∀ idx x, (l.set idx x).value.answer.toOption = (l.head.stop (onCount idx) 0).element?
  atLink : ∀ pos, ∃ passed : Chain α,
    l.head = passed.joinEnd (l.head.stop (onCount pos) 0).link ∧
      ∀ (β : Type) (f : Chain α → β × Chain α), l.head.atLink f pos.toNat =
        ((f (l.head.stop (onCount pos) 0).link).1,
          passed.joinEnd (f (l.head.stop (onCount pos) 0).link).2)

theorem walks [BEq α] (l : LinkedList α) : Walks l where
  index x := indexFrom_eq_stop x 0 l.head
  get idx := by
    rw [← getFrom_eq_stop, get]
    cases l.head.getFrom idx 0 <;> rfl
  set idx x := by
    rw [← setFrom_eq_stop idx x, set]
    cases l.head.setFrom idx x 0 <;> rfl
  atLink pos := by
    have h := atLink_eq_stop pos 0 l.head
    rw [UInt64.sub_zero] at h
    exact h

/-- The counter of a walk is the number of nodes it has passed, and never more than the list
counts, whatever ends the walk. -/
structure CountsSteps (l : LinkedList α) : Prop where
  passed : ∀ ends p, l.head.Visits ends p → p.link.toList = l.toList.drop p.count.toNat
  bound : ∀ ends p, l.head.Visits ends p → p.count ≤ l.len
  step : ∀ ends p q, l.head.Visits ends p → Step ends p q → q.count.toNat = p.count.toNat + 1

theorem Holds.head_short (h : l.Holds xs) : l.head.toList.length < UInt64.size := by
  rw [← toList, h.elements]
  exact h.length_lt

theorem Holds.countsSteps (h : l.Holds xs) : CountsSteps l where
  passed _ _ visits := (visits.within h.head_short).link
  bound _ _ visits := by
    have hcount := (visits.within h.head_short).count
    rw [UInt64.le_iff_toNat_le, h.count, ← h.elements]
    exact hcount
  step _ _ _ visits step := step.count_eq h.head_short (visits.within h.head_short)

/-! ## Appending -/

/-- The walk of `append` makes as many steps as the list counts and stops on the empty link behind
the last node, so that no node is lost when the new one is put there. -/
structure AppendsBehind (l : LinkedList α) : Prop where
  stop : l.head.stop (onCount l.len) 0 = ⟨.empty, l.len⟩
  after : ∀ x, (l.append x).value = ⟨l.head.joinEnd (.node x .empty), l.len + 1⟩
  count : (l.len + 1).toNat = l.len.toNat + 1

theorem Holds.append_value (h : l.Holds xs) (x : α) :
    (l.append x).value = ⟨l.head.joinEnd (.node x .empty), l.len + 1⟩ := by
  rw [append_eq l x (by rw [h.count, h.elements]), joinEnd_eq]
  rfl

theorem Holds.appendsBehind (h : l.Holds xs) (room : xs.length + 1 < UInt64.size) :
    AppendsBehind l where
  stop := by
    have hlength : l.head.toList.length = l.len.toNat := by
      rw [h.count, ← h.elements]
      rfl
    have hlast : (⟨.empty, l.len⟩ : Place α).Within l.head :=
      ⟨(List.drop_eq_nil_of_le (Nat.le_of_eq hlength)).symm, Nat.le_of_eq hlength.symm⟩
    exact stop_onCount h.head_short hlast
  after := h.append_value
  count := toNat_succ (by rw [h.count]; exact room)

/-! ## Unlinking -/

/-- The search for `x` and the walk of `unlink` to its position both stop at the node of `data`,
which is what `unlink` and `remove` hand out. -/
structure Unlinks [BEq α] (l : LinkedList α) (x : α) (pos : UInt64) (data : α) (next : Chain α) :
    Prop where
  sought : l.head.stop (onMatch x) 0 = ⟨.node data next, pos⟩
  equal : data == x
  stop : l.head.stop (onCount pos) 0 = ⟨.node data next, pos⟩
  unlink : l.unlink pos = ⟨⟨.ok data, ⟨.ofList (l.toList.eraseIdx pos.toNat), l.len - 1⟩⟩, []⟩
  remove : (l.remove x).value = (l.unlink pos).value
  count : (l.len - 1).toNat + 1 = l.len.toNat

theorem Holds.unlinks [BEq α] (h : l.Holds xs) {x : α} {pos : UInt64}
    (found : l.index x = some pos) : ∃ data next, Unlinks l x pos data next := by
  rw [l.walks.index, Place.position?_eq_some_iff] at found
  obtain ⟨data, next, hsought⟩ := found
  -- the search has counted right, so its place is also the one that its counter leads to
  have hvisits : l.head.Visits (onMatch x) (l.head.stop (onMatch x) 0) := visits_stop l.head
  have hwithin := hvisits.within h.head_short
  rw [hsought] at hwithin
  have hget : l.toList[pos.toNat]? = some data := by
    rw [← List.head?_drop, toList, ← hwithin.link]
    rfl
  have hunlink : l.unlink pos =
      ⟨⟨.ok data, ⟨.ofList (l.toList.eraseIdx pos.toNat), l.len - 1⟩⟩, []⟩ := by
    rw [unlink_eq, hget]
  refine ⟨data, next, hsought, ends_of_stop hsought, stop_onCount h.head_short hwithin, hunlink,
    ?_, ?_⟩
  · unfold LinkedList.remove
    rw [l.walks.index, hsought]
    simp [Place.position?, hunlink]
  · obtain ⟨hpos, -⟩ := List.getElem?_eq_some_iff.mp hget
    have hone : 1 ≤ l.len.toNat := by
      rw [h.count, ← h.elements]
      omega
    exact toNat_sub_add hone

/-- A removal fails only where nothing matches. -/
theorem Holds.remove_error [BEq α] (h : l.Holds xs) {x : α} {error : AccessError}
    (failed : (l.remove x).value.answer = .error error) :
    error = .notFound ∧ l.index x = none := by
  cases hindex : l.index x with
  | none =>
    unfold LinkedList.remove at failed
    rw [hindex] at failed
    cases failed
    exact ⟨rfl, rfl⟩
  | some pos =>
    obtain ⟨data, next, hunlinks⟩ := h.unlinks hindex
    rw [hunlinks.remove, hunlinks.unlink] at failed
    cases failed

/-! ## Extending -/

/-- One round of an extension: a node is put on the last link and counted. -/
def hang (l : LinkedList α) (x : α) : LinkedList α := ⟨l.head.joinEnd (.node x .empty), l.len + 1⟩

/-- An extension goes on round by round, also if its source breaks off. A round on a list with room
for one more element counts right, and if all do, the count that is left is no smaller than the
one at the start. -/
structure ExtendsByRounds (l : LinkedList α) (source : Source α) : Prop where
  after : (l.extend source).value.after = source.delivered.foldl hang l
  round : ∀ done x rest, source.delivered = done ++ x :: rest →
    (done.foldl hang l).toList.length + 1 < UInt64.size →
      ((done.foldl hang l).len + 1).toNat = (done.foldl hang l).len.toNat + 1
  added : (l.extend source).value.after.toList.length < UInt64.size →
    ((l.extend source).value.after.len - l.len).toNat + l.len.toNat =
      (l.extend source).value.after.len.toNat

theorem foldl_hang (l : LinkedList α) (ys : List α) :
    ys.foldl hang l = ⟨.ofList (l.toList ++ ys), l.len + ys.length.toUInt64⟩ := by
  induction ys generalizing l with
  | nil => simp [toList]
  | cons y ys ih =>
    rw [List.foldl_cons, ih]
    simp [hang, toList, Chain.toList, UInt64.add_assoc, UInt64.add_comm 1]

theorem toList_foldl_hang (l : LinkedList α) (ys : List α) :
    (ys.foldl hang l).toList = l.toList ++ ys := by
  rw [foldl_hang]
  exact Chain.toList_ofList _

theorem Holds.hang (h : l.Holds xs) (x : α) (short : xs.length + 1 < UInt64.size) :
    (l.hang x).Holds (xs ++ [x]) := by
  rw [LinkedList.hang, ← h.append_value x]
  exact h.append x short

theorem Holds.hangAll (h : l.Holds xs) (ys : List α)
    (short : (ys.foldl LinkedList.hang l).toList.length < UInt64.size) :
    (ys.foldl LinkedList.hang l).Holds (xs ++ ys) := by
  rw [toList_foldl_hang, h.elements, List.length_append] at short
  induction ys generalizing l xs with
  | nil => simpa using h
  | cons y ys ih =>
    rw [List.length_cons] at short
    have hrest := ih (h.hang y (by omega)) (by simp; omega)
    simpa using hrest

theorem Holds.extendsByRounds (h : l.Holds xs) (source : Source α) : ExtendsByRounds l source where
  after := by rw [extend_after, foldl_hang]
  round done x rest _ room := by
    have hdone := h.hangAll done (by omega)
    rw [hdone.elements] at room
    exact toNat_succ (by rw [hdone.count]; exact room)
  added short := by
    rw [extend_after, ← foldl_hang] at short ⊢
    have hdone := h.hangAll source.delivered short
    apply toNat_sub_add
    rw [hdone.count, h.count, List.length_append]
    exact Nat.le_add_right _ _

/-! ## Lists that operations can build -/

/-- Copies of such lists are such lists, whatever the copy of an element is. -/
theorem Reachable.clone [BEq α] (h : l.Reachable) (copy : α → α) : (l.clone copy).Reachable :=
  (h.holds.clone copy).reachable

end LinkedList

open LinkedList Chain

/-- In every list that operations can build and that has room for one more element, walks make all
their steps and counters do not wrap. An append comes to the empty link behind the last node; a
position that a search has found leads to the node it has found, so that unlinking never refuses
it and a removal fails only where nothing matches; an extension counts every element it links up;
and no walk counts more nodes than there are, however far the position it is sent to. -/
theorem walks_make_their_steps [BEq α] (l : LinkedList α) (reachable : l.Reachable)
    (room : l.toList.length + 1 < UInt64.size) :
    Walks l ∧ CountsSteps l ∧ AppendsBehind l ∧
      (∀ x pos, l.index x = some pos → ∃ data next, Unlinks l x pos data next) ∧
      (∀ x error, (l.remove x).value.answer = .error error →
        error = .notFound ∧ l.index x = none) ∧
      (∀ source, ExtendsByRounds l source) ∧
      ∀ copy, (l.clone copy).Reachable := by
  have hl := reachable.holds
  refine ⟨l.walks, hl.countsSteps, hl.appendsBehind room, ?_, ?_, hl.extendsByRounds,
    reachable.clone⟩
  · intro x pos found
    exact hl.unlinks found
  · intro x error failed
    exact hl.remove_error failed

/-- The walk of an append passes all three nodes, the position of the first match leads to it, and a
walk that is sent to the last of all positions counts to three. -/
theorem walks_make_their_steps_caseless :
    (LinkedList.ofList [(⟨"c"⟩ : Caseless), ⟨"aB"⟩, ⟨"Ab"⟩]).value.head.stop (onCount 3) 0 =
        ⟨.empty, 3⟩ ∧
      (∃ next, Unlinks (LinkedList.ofList [⟨"c"⟩, ⟨"aB"⟩, ⟨"Ab"⟩]).value
        (⟨"AB"⟩ : Caseless) 1 ⟨"aB"⟩ next) ∧
      ∀ p, (LinkedList.ofList [(⟨"c"⟩ : Caseless), ⟨"aB"⟩, ⟨"Ab"⟩]).value.head.Visits
        (onCount 18446744073709551615) p → p.count ≤ 3 := by
  have hl := holds_ofList [(⟨"c"⟩ : Caseless), ⟨"aB"⟩, ⟨"Ab"⟩] (by decide)
  have hindex : (LinkedList.ofList [⟨"c"⟩, ⟨"aB"⟩, ⟨"Ab"⟩]).value.index (⟨"AB"⟩ : Caseless) =
      some 1 := by
    rw [index_eq, hl.elements]
    simp [List.findIdx?_cons, Caseless.beq_eq]
  obtain ⟨-, hcounts, happends, hunlinks, -, -, -⟩ :=
    walks_make_their_steps _ (.ofList [(⟨"c"⟩ : Caseless), ⟨"aB"⟩, ⟨"Ab"⟩] (by decide))
      (by rw [hl.elements]; decide)
  refine ⟨happends.stop, ?_, hcounts.bound _⟩
  obtain ⟨data, next, hdata⟩ := hunlinks _ _ hindex
  have hunlink := hdata.unlink
  rw [unlink_eq, hl.elements] at hunlink
  cases hunlink
  exact ⟨next, hdata⟩

end SeqStore
