import SeqStore.Gapped
import SeqStore.Proofs.SearchPaths

/-!
The default methods of a container, whatever its length and its access say. The length may promise
more positions than there are, or fewer, and access may fail at any of them: the default search
finds the first position below the length that is answered with a match, and the failures before
it neither hide nor move it. Gapped sequences, which have nothing but a length and access, show
what this comes to: of their places the search sees those that are there and claimed.
-/

namespace SeqStore

variable {α γ : Type}

/-- A container that has nothing of its own but a length and access. -/
@[reducible] def Container.ofAccess (len : γ → UInt64)
    (get : γ → UInt64 → Traced (Except AccessError α)) : Container γ α where
  len := len
  get := get

/-! ## Any length and any access -/

/-- The position is answered with an element that matches `x`. -/
def AnswersWith [BEq α] (get : UInt64 → Traced (Except AccessError α)) (x : α) (pos : UInt64) :
    Prop :=
  ∃ y, (get pos).value = .ok y ∧ y == x

/-- The default search looks for the first position that matches. -/
theorem search_eq_firstPosition [BEq α] (len : UInt64)
    (get : UInt64 → Traced (Except AccessError α)) (x : α) :
    ∃ test : UInt64 → Traced Bool, (∀ pos, (test pos).value = true ↔ AnswersWith get x pos) ∧
      search len get x = firstPosition test 0 len.toNat := by
  refine ⟨_, fun pos => ?_, rfl⟩
  rw [Traced.value_bind, AnswersWith]
  cases (get pos).value with
  | ok y => simp
  | error _ => simp

theorem search_eq_some_iff [BEq α] (len : UInt64) (get : UInt64 → Traced (Except AccessError α))
    (x : α) (i : UInt64) :
    (search len get x).value = some i ↔
      i < len ∧ AnswersWith get x i ∧ ∀ k, k < i → ¬AnswersWith get x k := by
  obtain ⟨test, htest, hsearch⟩ := search_eq_firstPosition len get x
  rw [hsearch, firstPosition_eq_some_iff]
  simp only [← htest, Bool.not_eq_true]

theorem search_eq_none_iff [BEq α] (len : UInt64) (get : UInt64 → Traced (Except AccessError α))
    (x : α) : (search len get x).value = none ↔ ∀ i, i < len → ¬AnswersWith get x i := by
  obtain ⟨test, htest, hsearch⟩ := search_eq_firstPosition len get x
  rw [hsearch, firstPosition_eq_none_iff]
  simp only [← htest, Bool.not_eq_true]

/-- More positions do not change what was found among the first. -/
theorem search_of_le [BEq α] {len len' : UInt64} {get : UInt64 → Traced (Except AccessError α)}
    {x : α} {i : UInt64} (hle : len ≤ len') (h : (search len get x).value = some i) :
    (search len' get x).value = some i := by
  obtain ⟨hlt, hfirst⟩ := (search_eq_some_iff len get x i).mp h
  exact (search_eq_some_iff len' get x i).mpr ⟨UInt64.lt_of_lt_of_le hlt hle, hfirst⟩

/-- The methods say what length and access make of the question. -/
structure GoesByAccess [BEq α] [Container γ α] (c : γ) (x : α) : Prop where
  found : ∀ i, (Container.index c x).value = some i ↔
    i < Container.len c ∧ AnswersWith (Container.get c) x i ∧
      ∀ k, k < i → ¬AnswersWith (Container.get c) x k
  absent : (Container.index c x).value = none ↔
    ∀ i, i < Container.len c → ¬AnswersWith (Container.get c) x i
  contains : (Container.contains c x).value = true ↔
    ∃ i, i < Container.len c ∧ AnswersWith (Container.get c) x i
  isEmpty : Container.isEmpty c = true ↔ Container.len c = 0

theorem goesByAccess_ofAccess [BEq α] (len : γ → UInt64)
    (get : γ → UInt64 → Traced (Except AccessError α)) (c : γ) (x : α) :
    letI := Container.ofAccess len get
    GoesByAccess c x := by
  let := Container.ofAccess len get
  have habsent := search_eq_none_iff (len c) (get c) x
  have hcontains : (search (len c) (get c) x).value.isSome = true ↔
      ∃ i, i < len c ∧ AnswersWith (get c) x i := by
    rw [Option.isSome_iff_ne_none, ne_eq, habsent]
    simp
  exact ⟨search_eq_some_iff (len c) (get c) x, habsent, hcontains, beq_iff_eq⟩

/-! ## Gapped sequences -/

namespace Gapped

/-- The places that are there and claimed. -/
def seen (g : Gapped α) : List (Option α) :=
  g.places.toList.take (min g.claimed.toNat g.places.size)

theorem length_seen (g : Gapped α) : g.seen.length = min g.claimed.toNat g.places.size := by
  rw [seen, List.length_take, Array.length_toList]
  omega

theorem get_eq_ok_iff (g : Gapped α) (idx : UInt64) (y : α) :
    g.get idx = .ok y ↔ g.places[idx.toNat]? = some (some y) := by
  unfold get
  split <;> simp_all

/-- A place that is seen is there. -/
private theorem getElem?_places (g : Gapped α) {n : Nat} (h : n < g.seen.length) :
    g.places[n]? = some g.seen[n] := by
  have hn : n < g.places.size := by
    have := g.length_seen
    omega
  simp [seen, hn]

variable [BEq α]

theorem answersWith_iff (g : Gapped α) (x : α) (pos : UInt64) :
    AnswersWith (Container.get g) x pos ↔
      ∃ place, g.places[pos.toNat]? = some place ∧ place.any (· == x) = true := by
  have hget : ∀ y, (Container.get g pos).value = .ok y ↔ g.places[pos.toNat]? = some (some y) :=
    g.get_eq_ok_iff pos
  simp only [AnswersWith, hget]
  constructor
  · rintro ⟨y, hy, hmatch⟩
    exact ⟨some y, hy, hmatch⟩
  · rintro ⟨_ | y, hplace, hmatch⟩
    · cases hmatch
    · exact ⟨y, hplace, hmatch⟩

/-- Below the claimed length, the places seen say which positions are answered with a match. -/
theorem answersWith_iff_seen (g : Gapped α) (x : α) {pos : UInt64} (hpos : pos < g.claimed) :
    AnswersWith (Container.get g) x pos ↔
      ∃ h : pos.toNat < g.seen.length, g.seen[pos.toNat].any (· == x) = true := by
  have hseen := g.length_seen
  rw [UInt64.lt_iff_toNat_lt] at hpos
  rw [answersWith_iff]
  constructor
  · rintro ⟨place, hplace, hany⟩
    have hsize : pos.toNat < g.places.size := (Array.getElem?_eq_some_iff.mp hplace).1
    have hlt : pos.toNat < g.seen.length := by omega
    rw [g.getElem?_places hlt, Option.some.injEq] at hplace
    exact ⟨hlt, by rw [hplace, hany]⟩
  · rintro ⟨hlt, hany⟩
    exact ⟨_, g.getElem?_places hlt, hany⟩

theorem index_value_eq_some_iff (g : Gapped α) (x : α) (i : UInt64) :
    (Container.index g x).value = some i ↔
      i < g.claimed ∧ AnswersWith (Container.get g) x i ∧
        ∀ k, k < i → ¬AnswersWith (Container.get g) x k :=
  search_eq_some_iff g.claimed (Container.get g) x i

/-- The search finds what stands first among the places seen. -/
theorem index_value_eq (g : Gapped α) (x : α) :
    (Container.index g x).value =
      (g.seen.findIdx? (Option.any (· == x))).map Nat.toUInt64 := by
  have hseen := g.length_seen
  have hclaimed := g.claimed.toNat_lt_size
  apply Option.ext
  intro i
  rw [index_value_eq_some_iff, findIdx?_word_eq_some_iff (by omega),
    List.findIdx?_eq_some_iff_getElem]
  constructor
  · rintro ⟨hi, hmatch, hbefore⟩
    obtain ⟨hlt, hany⟩ := (g.answersWith_iff_seen x hi).mp hmatch
    refine ⟨hlt, hany, fun j hj hany' => ?_⟩
    -- every earlier place has a position, as the claimed length is one
    obtain ⟨k, rfl⟩ : ∃ k : UInt64, k.toNat = j :=
      ⟨j.toUInt64, UInt64.toNat_ofNat_of_lt (by omega)⟩
    have hki : k < i := UInt64.lt_iff_toNat_lt.mpr hj
    exact hbefore k hki ((g.answersWith_iff_seen x (UInt64.lt_trans hki hi)).mpr ⟨_, hany'⟩)
  · rintro ⟨hlt, hany, hbefore⟩
    have hi : i < g.claimed := by
      rw [UInt64.lt_iff_toNat_lt]
      omega
    refine ⟨hi, (g.answersWith_iff_seen x hi).mpr ⟨hlt, hany⟩, fun k hki hmatch => ?_⟩
    obtain ⟨_, hany'⟩ := (g.answersWith_iff_seen x (UInt64.lt_trans hki hi)).mp hmatch
    exact hbefore k.toNat (UInt64.lt_iff_toNat_lt.mp hki) hany'

theorem index_eq (g : Gapped α) (x : α) :
    Container.index g x =
      ⟨(g.seen.findIdx? (Option.any (· == x))).map Nat.toUInt64, []⟩ := by
  have hlog : (Container.index g x).log = [] := by
    apply firstPosition_log
    intro i _
    change ([] : List Event) ++ _ = []
    cases g.get (0 + i.toUInt64) <;> rfl
  rw [← g.index_value_eq x, ← hlog]

/-- Places without a match, empty or not, only count. -/
theorem index_append {before : List (Option α)} {x y : α} {claimed : UInt64}
    (hbefore : ∀ place ∈ before, place.any (· == x) = false) (hy : y == x)
    (hclaimed : before.length < claimed.toNat) (after : List (Option α)) :
    (Container.index (⟨(before ++ some y :: after).toArray, claimed⟩ : Gapped α) x).value =
      some before.length.toUInt64 := by
  have hshort := claimed.toNat_lt_size
  have hword : before.length.toUInt64.toNat = before.length :=
    UInt64.toNat_ofNat_of_lt (by omega)
  rw [index_value_eq_some_iff, UInt64.lt_iff_toNat_lt, answersWith_iff, hword]
  refine ⟨hclaimed, ⟨some y, by simp, hy⟩, fun k hk hmatch => ?_⟩
  obtain ⟨place, hplace, hany⟩ := (answersWith_iff _ x k).mp hmatch
  rw [UInt64.lt_iff_toNat_lt, hword] at hk
  rw [List.getElem?_toArray, List.getElem?_append_left hk] at hplace
  rw [hbefore place (List.mem_of_getElem? hplace)] at hany
  cases hany

end Gapped

/-- Whatever its length and its access say, the default methods of a container are right: the search
answers with the first position below the length at which access succeeds with a match, and with
nothing exactly if there is none. A gapped sequence is searched in the places that are there and
claimed, places without a match never hide or shift one, and a greater length never changes what was
found. -/
theorem default_methods_right [BEq α] (x : α) :
    (∀ (γ : Type) (len : γ → UInt64) (get : γ → UInt64 → Traced (Except AccessError α)) (c : γ),
      letI := Container.ofAccess len get
      GoesByAccess c x) ∧
    (∀ g : Gapped α, Container.index g x =
      ⟨(g.seen.findIdx? (Option.any (· == x))).map Nat.toUInt64, []⟩) ∧
    (∀ (before after : List (Option α)) (y : α) (claimed : UInt64),
      (∀ place ∈ before, place.any (· == x) = false) → y == x → before.length < claimed.toNat →
      (Container.index (⟨(before ++ some y :: after).toArray, claimed⟩ : Gapped α) x).value =
        some before.length.toUInt64) ∧
    ∀ (g : Gapped α) (claimed i : UInt64), g.claimed ≤ claimed →
      (Container.index g x).value = some i →
      (Container.index { g with claimed := claimed } x).value = some i := by
  refine ⟨?_, ?_, ?_, ?_⟩
  · intro γ len get c
    exact goesByAccess_ofAccess len get c x
  · intro g
    exact g.index_eq x
  · intro before after y claimed hbefore hy hclaimed
    exact Gapped.index_append hbefore hy hclaimed after
  · intro g claimed i hle hfound
    exact search_of_le hle hfound

/-- Access that fails at first, and at last; and a gapped sequence that claims more than it has. -/
theorem default_methods_right_failing :
    (search 3 (fun pos => return if pos = 1 then .ok (4 : UInt8) else .error .notFound) 4).value =
        some 1 ∧
      (Container.index (⟨#[none, some 7, none, some 4, some 4], 9⟩ : Gapped UInt8) 4).value =
        some 3 := by
  obtain ⟨hany, -, hgapped, hhigher⟩ := default_methods_right (4 : UInt8)
  constructor
  · let : Container Unit UInt8 := Container.ofAccess (fun _ => 3)
      (fun _ pos => return if pos = 1 then .ok 4 else .error .notFound)
    have hright : GoesByAccess () (4 : UInt8) := hany Unit _ _ ()
    refine (hright.found 1).mpr ?_
    refine ⟨by decide, ⟨4, rfl, rfl⟩, fun k hk hmatch => ?_⟩
    obtain ⟨y, hy, -⟩ := hmatch
    have hne : k ≠ 1 := by
      rintro rfl
      exact absurd hk (by decide)
    change (if k = 1 then .ok 4 else .error AccessError.notFound) = Except.ok y at hy
    simp [hne] at hy
  · have hclaimed := hgapped [none, some 7, none] [some 4] 4 4 (by simp) rfl (by decide)
    exact hhigher _ 9 3 (by decide) hclaimed

end SeqStore
