import SeqStore.Element.Caseless
import SeqStore.Proofs.Runs

/-!
Removing the same element again and again. Each call takes out the first of the elements that
still match, so the matching elements come out in the order in which they stood, and then none
is found any more; the others stay where they are. Nothing is asked of the equality: what comes
out is what was stored, and a needle that matches nothing, not even itself, removes nothing.
-/

namespace SeqStore

variable {α γ : Type}

/-! ## Sequences -/

theorem filter_eraseP (p : α → Bool) (xs : List α) :
    (xs.eraseP p).filter p = (xs.filter p).tail := by
  induction xs with
  | nil => rfl
  | cons x xs ih =>
    cases hx : p x with
    | true => simp [hx]
    | false => simp [hx, ih]

theorem filter_not_eraseP (p : α → Bool) (xs : List α) :
    (xs.eraseP p).filter (fun y => !p y) = xs.filter (fun y => !p y) := by
  induction xs with
  | nil => rfl
  | cons x xs ih =>
    cases hx : p x with
    | true => simp [hx]
    | false => simp [hx, ih]

namespace Request

variable [BEq α]

/-- The answers of a sequence: the matching elements one by one, and from then on a failure. -/
theorem plainAnswers_removals (x : α) (calls : Nat) (xs : List α) :
    plainAnswers xs (.replicate calls (.remove x)) =
      ((xs.filter (· == x)).take calls).map (fun y => .ok (.element y)) ++
        .replicate (calls - (xs.filter (· == x)).length) (.error (.access .notFound)) := by
  induction calls generalizing xs with
  | zero => simp [plainAnswers]
  | succ calls ih =>
    rw [List.replicate_succ, plainAnswers]
    -- the first match is the first of the matching elements
    simp only [plain, ih, filter_eraseP, firstMatch, ← List.head?_filter]
    cases xs.filter (· == x) with
    | nil => simp [Vessel.access, List.replicate_succ]
    | cons y rest => simp [Vessel.access]

theorem filter_removals (x : α) (calls : Nat) (xs : List α) :
    (plainOutcome xs (.replicate calls (.remove x))).filter (· == x) =
      (xs.filter (· == x)).drop calls := by
  induction calls generalizing xs with
  | zero => rfl
  | succ calls ih =>
    rw [List.replicate_succ, plainOutcome, ih, plain, filter_eraseP, List.drop_tail]

theorem filter_not_removals (x : α) (calls : Nat) (xs : List α) :
    (plainOutcome xs (.replicate calls (.remove x))).filter (fun y => !(y == x)) =
      xs.filter (fun y => !(y == x)) := by
  induction calls generalizing xs with
  | zero => rfl
  | succ calls ih => rw [List.replicate_succ, plainOutcome, ih, plain, filter_not_eraseP]

/-- Something matches for as long as there were more matching elements than calls. -/
theorem any_removals (x : α) (calls : Nat) (xs : List α) :
    (plainOutcome xs (.replicate calls (.remove x))).any (· == x) =
      decide (calls < (xs.filter (· == x)).length) := by
  have hleft := filter_removals x calls xs
  rw [Bool.eq_iff_iff, decide_eq_true_iff, List.any_eq_true]
  constructor
  · rintro ⟨y, hy, hyx⟩
    have hmem : y ∈ (xs.filter (· == x)).drop calls := by
      rw [← hleft]
      exact List.mem_filter.mpr ⟨hy, hyx⟩
    have hpos := List.length_pos_of_mem hmem
    rw [List.length_drop] at hpos
    omega
  · intro hlt
    have hmem : (xs.filter (· == x))[calls] ∈ (xs.filter (· == x)).drop calls :=
      List.mem_drop_iff_getElem.mpr ⟨0, by omega, rfl⟩
    rw [← hleft] at hmem
    obtain ⟨hy, hyx⟩ := List.mem_filter.mp hmem
    exact ⟨_, hy, hyx⟩

/-- What is left when nothing matches any more. -/
theorem plainOutcome_removals (x : α) (calls : Nat) (xs : List α)
    (enough : (xs.filter (· == x)).length ≤ calls) :
    plainOutcome xs (.replicate calls (.remove x)) = xs.filter (fun y => !(y == x)) := by
  have hnone := any_removals x calls xs
  rw [decide_eq_false (by omega), List.any_eq_false] at hnone
  rw [← filter_not_removals x calls xs]
  apply Eq.symm
  rw [List.filter_eq_self]
  intro y hy
  simpa using hnone y hy

end Request

/-! ## Lists and buffers -/

/-- What removing `x` from a container comes to, call after call. -/
structure Drains [BEq α] [MutableContainer γ α] (view : γ → List α) (c : γ) (x : α) : Prop where
  /-- The calls answer with the matching elements in their order, and then with a failure. -/
  answers : ∀ calls, (Request.exchanges c (.replicate calls (.remove x))).map Exchange.answer =
    (((view c).filter (· == x)).take calls).map (fun y => .ok (.element y)) ++
      .replicate (calls - ((view c).filter (· == x)).length) (.error (.access .notFound))
  /-- Before the calls that succeed, and before no other, the container has a match. -/
  presence : ∀ calls,
    (Container.contains (Request.outcome c (.replicate calls (.remove x))) x).value =
      decide (calls < ((view c).filter (· == x)).length)
  /-- Once they have failed, the container holds the other elements in their order. -/
  rest : ∀ calls, ((view c).filter (· == x)).length ≤ calls →
    view (Request.outcome c (.replicate calls (.remove x))) =
      (view c).filter (fun y => !(y == x))

private theorem removals_steady (x : α) (calls : Nat) :
    ∀ request ∈ List.replicate calls (Request.remove x), request.grows = false := by
  intro request hrequest
  rw [List.eq_of_mem_replicate hrequest]
  rfl

section

variable [BEq α]

theorem LinkedList.Holds.drains {l : LinkedList α} {xs : List α} (h : l.Holds xs) (x : α) :
    Drains LinkedList.toList l x := by
  obtain rfl := h.elements
  refine ⟨fun calls => ?_, fun calls => ?_, fun calls enough => ?_⟩
  all_goals
    obtain ⟨hanswers, houtcome⟩ := Request.list_run _ h (removals_steady x calls)
  · rw [hanswers, Request.plainAnswers_removals]
  · change LinkedList.contains _ x = _
    rw [LinkedList.contains_eq, houtcome.elements, Request.any_removals]
  · rw [houtcome.elements, Request.plainOutcome_removals x calls _ enough]

theorem Buffer.drains (b : Buffer α) (short : b.toList.length < UInt64.size) (x : α) :
    Drains Buffer.toList b x := by
  refine ⟨fun calls => ?_, fun calls => ?_, fun calls enough => ?_⟩
  all_goals
    obtain ⟨hanswers, houtcome⟩ := Request.buffer_run _ b short (removals_steady x calls)
  · rw [hanswers, Request.plainAnswers_removals]
  · have hle := Request.length_plainOutcome_le _ b.toList (removals_steady x calls)
    rw [← houtcome] at hle
    have hshort := Nat.lt_of_le_of_lt hle short
    rw [Request.buffer_contains _ x hshort, houtcome, Request.any_removals]
  · rw [houtcome, Request.plainOutcome_removals x calls _ enough]

/-- Removing the same element again and again, from every list that operations can build and from
every buffer whose length a word counts: it succeeds once for each stored element that matches,
hands these out in their order, and then fails for good; until then the element is contained,
from then on it is not, and what is left are the elements that do not match, in their order. -/
theorem repeated_removal (x : α) :
    (∀ l : LinkedList α, l.Reachable → Drains LinkedList.toList l x) ∧
      ∀ b : Buffer α, b.toList.length < UInt64.size → Drains Buffer.toList b x :=
  ⟨fun _ reachable => reachable.holds.drains x, fun b short => b.drains short x⟩

end

/-- Two of three texts match, each in letters of its own. -/
theorem repeated_removal_caseless :
    (Request.exchanges (LinkedList.ofList [⟨"Ab"⟩, ⟨"c"⟩, ⟨"aB"⟩]).value
        (.replicate 3 (.remove (⟨"AB"⟩ : Caseless)))).map Exchange.answer =
      [.ok (.element ⟨"Ab"⟩), .ok (.element ⟨"aB"⟩), .error (.access .notFound)] := by
  have hfirst : ((⟨"Ab"⟩ : Caseless) == ⟨"AB"⟩) = true := by rw [Caseless.beq_eq]; decide
  have hsecond : ((⟨"c"⟩ : Caseless) == ⟨"AB"⟩) = false := by rw [Caseless.beq_eq]; decide
  have hthird : ((⟨"aB"⟩ : Caseless) == ⟨"AB"⟩) = true := by rw [Caseless.beq_eq]; decide
  have hdrains := (repeated_removal (⟨"AB"⟩ : Caseless)).1 _
    (.ofList [⟨"Ab"⟩, ⟨"c"⟩, ⟨"aB"⟩] (by decide))
  rw [hdrains.answers 3, LinkedList.toList_ofList]
  simp [hfirst, hsecond, hthird]

end SeqStore
