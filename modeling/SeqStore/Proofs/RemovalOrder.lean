import SeqStore.Proofs.Access
import SeqStore.Proofs.Removal

/-!
Removing one needle after the other, in any order. Where the equality of elements is an
equivalence, a needle takes out the first element that is left of its class, so only the number of
needles in each class counts: that many of the class go, from the front, and the order in which the
needles come makes no difference. A needle that finds none of its class left changes nothing.
-/

namespace SeqStore

variable {α γ : Type}

/-! ## Quotas -/

section

variable [BEq α]

/-- The elements of `xs` without the first `quota x` of the class of each `x`. An element stays if
at least that many of its class stand before it. -/
def beyond (quota : α → Nat) (xs : List α) : List α :=
  (xs.zipIdx.filter fun entry =>
    quota entry.1 ≤ (xs.take entry.2).countP (· == entry.1)).map Prod.fst

/-- What is left of a sequence when each needle has taken out one of its class. -/
def survivors (needles xs : List α) : List α := beyond (fun x => needles.countP (· == x)) xs

/-- The quota after one of the class of `x` has gone. -/
def spend (quota : α → Nat) (x : α) : α → Nat :=
  fun y => if x == y then quota y - 1 else quota y

/-- Equal elements have the same quota. -/
def Classwise (quota : α → Nat) : Prop := ∀ x y, x == y → quota x = quota y

theorem spend_comm (quota : α → Nat) (x y : α) :
    spend (spend quota x) y = spend (spend quota y) x := by
  funext z
  simp only [spend]
  split <;> split <;> rfl

theorem spend_count (needle : α) (needles : List α) :
    spend (fun x => (needle :: needles).countP (· == x)) needle =
      fun x => needles.countP (· == x) := by
  funext x
  cases h : needle == x <;> simp [spend, h]

theorem beyond_zero (xs : List α) : beyond (fun _ => 0) xs = xs := by
  simp [beyond]

theorem beyond_cons (quota : α → Nat) (x : α) (xs : List α) :
    beyond quota (x :: xs) =
      if quota x = 0 then x :: beyond (spend quota x) xs else beyond (spend quota x) xs := by
  -- behind `x` every element has one more of its class in front of it, if that is the class of `x`
  have hrest : ((xs.zipIdx 1).filter fun entry =>
      quota entry.1 ≤ ((x :: xs).take entry.2).countP (· == entry.1)).map Prod.fst =
        beyond (spend quota x) xs := by
    rw [List.zipIdx_succ, List.filter_map, List.map_map, beyond]
    congr 1
    apply List.filter_congr
    rintro ⟨y, i⟩ -
    cases h : x == y with
    | true => simp [spend, h]
    | false => simp [spend, h]
  by_cases h : quota x = 0
  · rw [if_pos h, ← hrest]
    simp [beyond, h]
  · rw [if_neg h, ← hrest]
    simp [beyond, h]

end

/-! ## Classes -/

section

variable [BEq α] [EquivBEq α]

theorem classwise_count (needles : List α) : Classwise fun x => needles.countP (· == x) := by
  intro x y hxy
  have hmatch : (fun needle => needle == x) = fun needle => needle == y := by
    funext needle
    exact BEq.congr_right hxy
  simp only [hmatch]

theorem spend_congr (quota : α → Nat) {x y : α} (h : x == y) : spend quota x = spend quota y := by
  funext z
  simp only [spend, BEq.congr_left h]

theorem Classwise.spend {quota : α → Nat} (h : Classwise quota) (z : α) :
    Classwise (spend quota z) := by
  intro x y hxy
  simp only [SeqStore.spend, BEq.congr_right hxy, h x y hxy]

/-- To take out the first of a class that has to lose one uses up one of its quota. -/
theorem beyond_eraseP {quota : α → Nat} (classwise : Classwise quota) {needle : α}
    (due : 0 < quota needle) (xs : List α) :
    beyond (spend quota needle) (xs.eraseP (· == needle)) = beyond quota xs := by
  induction xs generalizing quota with
  | nil => rfl
  | cons x xs ih =>
    cases hx : x == needle with
    | true =>
      have hquota : quota x ≠ 0 := by
        rw [classwise x needle hx]
        omega
      have herase : (x :: xs).eraseP (· == needle) = xs := by simp [hx]
      rw [herase, beyond_cons, if_neg hquota, spend_congr quota hx]
    | false =>
      have hneedle : (needle == x) = false := by rw [BEq.comm, hx]
      have hdue : 0 < spend quota x needle := by simpa [spend, hx] using due
      have hsame : spend quota needle x = quota x := by simp [spend, hneedle]
      have herase : (x :: xs).eraseP (· == needle) = x :: xs.eraseP (· == needle) := by
        simp [hx]
      rw [herase, beyond_cons, beyond_cons, hsame, spend_comm, ih (classwise.spend x) hdue]

/-- Of each class the first ones are gone, and no others. -/
theorem filter_beyond {quota : α → Nat} (classwise : Classwise quota) (v : α) (xs : List α) :
    (beyond quota xs).filter (· == v) = (xs.filter (· == v)).drop (quota v) := by
  induction xs generalizing quota with
  | nil => simp [beyond]
  | cons x xs ih =>
    have hrest := ih (classwise.spend x)
    rw [beyond_cons]
    cases hx : x == v with
    | true =>
      have hquota := classwise x v hx
      have hspent : spend quota x v = quota v - 1 := by simp [spend, hx]
      rw [hspent] at hrest
      cases hv : quota v with
      | zero => simp [hquota, hv, hx, hrest]
      | succ k => simp [hquota, hv, hx, hrest]
    | false =>
      have hspent : spend quota x v = quota v := by simp [spend, hx]
      rw [hspent] at hrest
      split <;> simp [hx, hrest]

end

/-! ## Runs of removals -/

namespace Request

/-- A removal for each needle. -/
def removals (needles : List α) : List (Request α) := needles.map .remove

theorem removals_never_grow (needles : List α) :
    ∀ request ∈ removals needles, request.grows = false := by
  intro request hrequest
  obtain ⟨needle, -, rfl⟩ := List.mem_map.mp hrequest
  rfl

variable [BEq α]

theorem plainOutcome_needles [EquivBEq α] (needles xs : List α) :
    plainOutcome xs (removals needles) = survivors needles xs := by
  induction needles generalizing xs with
  | nil => exact (beyond_zero xs).symm
  | cons needle needles ih =>
    have hdue : 0 < (needle :: needles).countP (· == needle) := by simp
    rw [survivors, ← beyond_eraseP (classwise_count _) hdue, spend_count]
    exact ih (xs.eraseP (· == needle))

/-- Each removal that succeeds makes the sequence shorter by one, and no other does. -/
theorem successes_add_length (needles xs : List α) :
    (plainAnswers xs (removals needles)).countP Except.isOk +
      (plainOutcome xs (removals needles)).length = xs.length := by
  induction needles generalizing xs with
  | nil => exact Nat.zero_add _
  | cons needle needles ih =>
    have hrest := ih (xs.eraseP (· == needle))
    change (Vessel.access (firstMatch xs needle) ::
        plainAnswers (xs.eraseP (· == needle)) (removals needles)).countP Except.isOk +
      (plainOutcome (xs.eraseP (· == needle)) (removals needles)).length = _
    rw [List.countP_cons, firstMatch]
    cases hfind : xs.find? (· == needle) with
    | none =>
      have herase : xs.eraseP (· == needle) = xs :=
        List.eraseP_of_forall_not (List.find?_eq_none.mp hfind)
      have hfailed : (Vessel.access (.error .notFound : Except AccessError α)).isOk = false := rfl
      rw [herase] at hrest
      simp only [herase, hfailed]
      exact hrest
    | some y =>
      have hmem := List.mem_of_find?_eq_some hfind
      have hlength := List.length_eraseP_of_mem hmem (List.find?_some hfind)
      have hpos := List.length_pos_of_mem hmem
      have hremoved : (Vessel.access (.ok y : Except AccessError α)).isOk = true := rfl
      simp only [hremoved, ↓reduceIte]
      omega

/-- What the removals leave of a container. -/
def weeded [MutableContainer γ α] (c : γ) (needles : List α) : γ := outcome c (removals needles)

/-- How many of the removals succeed. -/
def successes [MutableContainer γ α] (c : γ) (needles : List α) : Nat :=
  (exchanges c (removals needles)).countP (·.answer.isOk)

/-- For a buffer the run is that of its elements, whatever their number; the storage stays. -/
theorem buffer_removals (needles : List α) (b : Buffer α) :
    (exchanges b (removals needles)).map Exchange.answer =
        plainAnswers b.toList (removals needles) ∧
      weeded b needles = .made b.storage (plainOutcome b.toList (removals needles)) := by
  induction needles generalizing b with
  | nil => exact ⟨rfl, rfl⟩
  | cons needle needles ih =>
    obtain ⟨hanswer, hafter, hstorage⟩ := buffer_remove b needle
    obtain ⟨hanswers, hweeded⟩ := ih (b.remove needle).value.after
    rw [hafter] at hanswers hweeded
    rw [hstorage] at hweeded
    exact ⟨congrArg₂ List.cons (congrArg Vessel.access hanswer) hanswers, hweeded⟩

end Request

/-! ## Lists and buffers -/

section

open Request

/-- What removing the needles one by one comes to for a container. -/
structure Weeds [BEq α] [MutableContainer γ α] (view : γ → List α) (c : γ) (needles : List α) :
    Prop where
  /-- Of each class the first elements go, one for each needle in the class. -/
  rest : view (weeded c needles) = survivors needles (view c)
  classes : ∀ x, (view (weeded c needles)).filter (· == x) =
    ((view c).filter (· == x)).drop (min (needles.countP (· == x)) ((view c).countP (· == x)))
  /-- As many removals succeed as elements have gone. -/
  count : successes c needles + (view (weeded c needles)).length = (view c).length
  /-- In another order the needles leave the same container, after as many successes. -/
  order : ∀ reordered, needles.Perm reordered →
    weeded c needles = weeded c reordered ∧ successes c needles = successes c reordered

variable [BEq α] [EquivBEq α]

/-- A container that is made of its elements and does in a run what they do is left with the
survivors. -/
theorem weeds_of_run [MutableContainer γ α] {view : γ → List α} {make : List α → γ} {c : γ}
    (elements : ∀ xs, view (make xs) = xs)
    (answers : ∀ needles, (exchanges c (removals needles)).map Exchange.answer =
      plainAnswers (view c) (removals needles))
    (outcome : ∀ needles, weeded c needles = make (plainOutcome (view c) (removals needles)))
    (needles : List α) : Weeds view c needles := by
  have hrest (needles : List α) : weeded c needles = make (survivors needles (view c)) := by
    rw [outcome, plainOutcome_needles]
  have hcount (needles : List α) :
      successes c needles + (survivors needles (view c)).length = (view c).length := by
    have hanswers : successes c needles =
        (plainAnswers (view c) (removals needles)).countP Except.isOk := by
      rw [← answers, List.countP_map]
      rfl
    rw [hanswers, ← plainOutcome_needles, successes_add_length]
  refine ⟨by rw [hrest, elements], fun x => ?_, ?_, fun reordered hperm => ?_⟩
  · have hclass := filter_beyond (classwise_count needles) x (view c)
    have hmembers : (view c).countP (· == x) = ((view c).filter (· == x)).length :=
      List.countP_eq_length_filter
    rw [hrest, elements, survivors, hclass, List.drop_eq_drop_iff]
    omega
  · rw [hrest, elements]
    exact hcount needles
  · have hsame : survivors needles (view c) = survivors reordered (view c) := by
      simp only [survivors, hperm.countP_eq]
    have hneedles := hcount needles
    have hreordered := hcount reordered
    rw [hsame] at hneedles
    exact ⟨by rw [hrest, hrest, hsame], by omega⟩

theorem LinkedList.Holds.weeds {l : LinkedList α} {xs : List α} (h : l.Holds xs)
    (needles : List α) : Weeds LinkedList.toList l needles := by
  obtain rfl := h.elements
  have hrun (needles : List α) := list_run _ h (removals_never_grow needles)
  apply weeds_of_run LinkedList.toList_made
  · exact fun needles => (hrun needles).1
  · exact fun needles => (hrun needles).2.eq_made

theorem Buffer.weeds (b : Buffer α) (needles : List α) : Weeds Buffer.toList b needles := by
  apply weeds_of_run (Buffer.toList_made b.storage)
  · exact fun needles => (buffer_removals needles b).1
  · exact fun needles => (buffer_removals needles b).2

/-- The order of removals makes no difference where the equality is an equivalence. Every list that
operations can build and every buffer is left the same by the needles in any order, with as many
successes: of each class the first elements have gone, one for each needle as far as they last. -/
theorem removal_order_irrelevant (needles : List α) :
    (∀ l : LinkedList α, l.Reachable → Weeds LinkedList.toList l needles) ∧
      ∀ b : Buffer α, Weeds Buffer.toList b needles :=
  ⟨fun _ reachable => reachable.holds.weeds needles, fun b => b.weeds needles⟩

end

/-- Three needles, one of which finds nothing left of its class, in two orders. -/
theorem removal_order_irrelevant_caseless :
    (Request.weeded (LinkedList.ofList [⟨"Ab"⟩, ⟨"c"⟩, ⟨"aB"⟩]).value
        [(⟨"AB"⟩ : Caseless), ⟨"C"⟩, ⟨"c"⟩]).toList = [⟨"aB"⟩] ∧
      Request.weeded (LinkedList.ofList [⟨"Ab"⟩, ⟨"c"⟩, ⟨"aB"⟩]).value
          [(⟨"AB"⟩ : Caseless), ⟨"C"⟩, ⟨"c"⟩] =
        Request.weeded (LinkedList.ofList [⟨"Ab"⟩, ⟨"c"⟩, ⟨"aB"⟩]).value
          [⟨"c"⟩, ⟨"C"⟩, ⟨"AB"⟩] ∧
      Request.successes (LinkedList.ofList [⟨"Ab"⟩, ⟨"c"⟩, ⟨"aB"⟩]).value
        [(⟨"c"⟩ : Caseless), ⟨"C"⟩, ⟨"AB"⟩] = 2 := by
  have hsurvivors : survivors [(⟨"AB"⟩ : Caseless), ⟨"C"⟩, ⟨"c"⟩] [⟨"Ab"⟩, ⟨"c"⟩, ⟨"aB"⟩] =
      [⟨"aB"⟩] := by
    simp [survivors, beyond, Caseless.beq_eq]
  have hweeds := (removal_order_irrelevant [(⟨"AB"⟩ : Caseless), ⟨"C"⟩, ⟨"c"⟩]).1 _
    (.ofList [⟨"Ab"⟩, ⟨"c"⟩, ⟨"aB"⟩] (by decide))
  obtain ⟨hsame, hsuccesses⟩ := hweeds.order [⟨"c"⟩, ⟨"C"⟩, ⟨"AB"⟩]
    (List.reverse_perm [(⟨"AB"⟩ : Caseless), ⟨"C"⟩, ⟨"c"⟩]).symm
  have hrest := hweeds.rest
  have hcount := hweeds.count
  rw [LinkedList.toList_ofList, hsurvivors] at hrest
  rw [hrest, LinkedList.toList_ofList, hsuccesses] at hcount
  refine ⟨hrest, hsame, ?_⟩
  -- as a variable, or the number would be computed by running the removals
  generalize Request.successes (_ : LinkedList Caseless) _ = successes at hcount ⊢
  simpa using hcount

end SeqStore
