import SeqStore.Container

/-!
The default search. It asks for one position after another, so its answer is the first
position that passes and its log is that of the questions asked. Over a container that
answers every position below its length with an element, it finds what a walk would find,
without a word in the log.
-/

namespace SeqStore

variable {α : Type}

theorem firstPosition_value (test : UInt64 → Traced Bool) (pos : UInt64) (count : Nat) :
    (firstPosition test pos count).value =
      ((List.range count).find? fun i => (test (pos + i.toUInt64)).value).map
        (pos + ·.toUInt64) := by
  induction count generalizing pos with
  | zero => rfl
  | succ count ih =>
    cases h : (test pos).value with
    | true => simp [firstPosition, List.range_succ_eq_map, h]
    | false =>
      simp [firstPosition, List.range_succ_eq_map, h, ih, List.find?_map, Function.comp_def,
        UInt64.add_assoc, UInt64.add_comm 1]

theorem firstPosition_eq_some_iff (test : UInt64 → Traced Bool) (len i : UInt64) :
    (firstPosition test 0 len.toNat).value = some i ↔
      i < len ∧ (test i).value = true ∧ ∀ k, k < i → (test k).value = false := by
  have hlen := len.toNat_lt_size
  rw [firstPosition_value, Option.map_eq_some_iff]
  simp only [UInt64.zero_add, List.find?_range_eq_some, List.mem_range, Bool.not_eq_true',
    UInt64.lt_iff_toNat_lt]
  constructor
  · rintro ⟨n, ⟨htest, hn, hbefore⟩, rfl⟩
    have hword : n.toUInt64.toNat = n := UInt64.toNat_ofNat_of_lt (by omega)
    refine ⟨by omega, htest, fun k hk => ?_⟩
    simpa using hbefore k.toNat (by omega)
  · rintro ⟨hi, htest, hbefore⟩
    refine ⟨i.toNat, ⟨by simpa using htest, hi, fun j hj => ?_⟩, by simp⟩
    -- a position below a word is a word itself
    have hword : j.toUInt64.toNat = j := UInt64.toNat_ofNat_of_lt (by omega)
    exact hbefore j.toUInt64 (by omega)

theorem firstPosition_eq_none_iff (test : UInt64 → Traced Bool) (len : UInt64) :
    (firstPosition test 0 len.toNat).value = none ↔ ∀ i, i < len → (test i).value = false := by
  have hlen := len.toNat_lt_size
  rw [firstPosition_value, Option.map_eq_none_iff]
  simp only [UInt64.zero_add, List.find?_eq_none, List.mem_range, Bool.not_eq_true,
    UInt64.lt_iff_toNat_lt]
  constructor
  · intro h i hi
    simpa using h i.toNat hi
  · intro h n hn
    have hword : n.toUInt64.toNat = n := UInt64.toNat_ofNat_of_lt (by omega)
    exact h n.toUInt64 (by omega)

theorem firstPosition_log (test : UInt64 → Traced Bool) (pos : UInt64) (count : Nat)
    (quiet : ∀ i < count, (test (pos + i.toUInt64)).log = []) :
    (firstPosition test pos count).log = [] := by
  induction count generalizing pos with
  | zero => rfl
  | succ count ih =>
    have hfirst : (test pos).log = [] := by simpa using quiet 0 (by omega)
    have hrest := ih (pos + 1) (by
      intro i hi
      have hnext := quiet (i + 1) (by omega)
      simpa [UInt64.add_assoc, UInt64.add_comm 1] using hnext)
    cases h : (test pos).value <;> simp [firstPosition, h, hfirst, hrest]

/-- The first position that passes is the position of the first element that does. -/
private theorem find?_range_eq (p : α → Bool) (xs : List α) (test : Nat → Bool)
    (h : ∀ i (hi : i < xs.length), test i = p xs[i]) :
    (List.range xs.length).find? test = xs.findIdx? p := by
  induction xs generalizing test with
  | nil => rfl
  | cons x xs ih =>
    have hfirst : test 0 = p x := h 0 (by simp)
    have hrest : (List.range xs.length).find? (test ∘ Nat.succ) = xs.findIdx? p :=
      ih (test ∘ Nat.succ) (fun i hi => h (i + 1) (by simpa using hi))
    rw [List.length_cons, List.range_succ_eq_map, List.find?_cons, List.findIdx?_cons, hfirst]
    cases p x with
    | true => rfl
    | false =>
      change ((List.range xs.length).map Nat.succ).find? test = _
      rw [List.find?_map, hrest]
      rfl

theorem search_eq [BEq α] (xs : List α) (get : UInt64 → Traced (Except AccessError α)) (x : α)
    (short : xs.length < UInt64.size)
    (h : ∀ i (hi : i < xs.length), get i.toUInt64 = ⟨.ok xs[i], []⟩) :
    search xs.length.toUInt64 get x = ⟨(xs.findIdx? (· == x)).map Nat.toUInt64, []⟩ := by
  have hlen : xs.length.toUInt64.toNat = xs.length := UInt64.toNat_ofNat_of_lt short
  have hvalue : (search xs.length.toUInt64 get x).value =
      (xs.findIdx? (· == x)).map Nat.toUInt64 := by
    unfold search
    rw [hlen, firstPosition_value, find?_range_eq (· == x)]
    · simp
    · intro i hi
      simp [h i hi]
  have hlog : (search xs.length.toUInt64 get x).log = [] := by
    unfold search
    rw [hlen]
    apply firstPosition_log
    intro i hi
    simp [h i hi]
  rw [← hvalue, ← hlog]

end SeqStore
