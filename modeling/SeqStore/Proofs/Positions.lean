import Mathlib.Data.List.Basic
import SeqStore.Element.Caseless
import SeqStore.Proofs.SearchPaths

/-!
How positions move when a list changes. What is taken out at a position leaves the elements before
it where they are and moves those behind it up by one; what is appended moves nothing. Where an
element is found follows from this, if the equality is an equivalence: then the elements that match
one needle are apart from those that match another, and equal needles have the same matches.
-/

namespace SeqStore

variable {α : Type}

/-! ## Sequences -/

theorem fetch_eraseIdx_of_lt {xs : List α} {pos : Nat} {k : UInt64} (hk : k.toNat < pos)
    (hpos : pos < xs.length) : fetch (xs.eraseIdx pos) k = fetch xs k := by
  have hold : xs[k.toNat]? = some xs[k.toNat] := List.getElem?_eq_getElem (Nat.lt_trans hk hpos)
  have hnew : (xs.eraseIdx pos)[k.toNat]? = some xs[k.toNat] := by
    rw [List.getElem?_eraseIdx_of_lt hk, hold]
  rw [fetch_some hnew, fetch_some hold]

theorem fetch_eraseIdx_of_ge {xs : List α} {pos : Nat} {k : UInt64} (hk : pos ≤ k.toNat)
    (hbound : k.toNat + 1 < xs.length) (short : xs.length < UInt64.size) :
    fetch (xs.eraseIdx pos) k = fetch xs (k + 1) := by
  -- the next position is still below the length, so that it does not wrap
  have hnext : (k + 1).toNat = k.toNat + 1 := toNat_succ (Nat.lt_trans hbound short)
  have hold : xs[(k + 1).toNat]? = some xs[k.toNat + 1] := by
    rw [hnext]
    exact List.getElem?_eq_getElem hbound
  have hnew : (xs.eraseIdx pos)[k.toNat]? = some xs[k.toNat + 1] := by
    rw [List.getElem?_eraseIdx_of_ge hk, List.getElem?_eq_getElem hbound]
  rw [fetch_some hnew, fetch_some hold]

/-- The first of all positions at which something passes. -/
theorem getElem?_zero_findIdxs (p : α → Bool) (xs : List α) (start : Nat) :
    (xs.findIdxs p start)[0]? = (xs.findIdx? p).map (· + start) := by
  induction xs generalizing start with
  | nil => rfl
  | cons x xs ih =>
    rw [List.findIdxs_cons, List.findIdx?_cons]
    cases p x with
    | true => simp
    | false => simp [ih, Function.comp_def, Nat.add_assoc, Nat.add_comm 1]

section

variable [BEq α] {xs : List α} {v w : α} {pos : Nat}

/-- The first match cuts a sequence in two, and is what removal takes out from between. -/
theorem cut_of_findIdx? (h : xs.findIdx? (· == v) = some pos) :
    ∃ front y back, xs = front ++ y :: back ∧ front.length = pos ∧ (y == v) = true ∧
      (∀ z ∈ front, (z == v) = false) ∧ xs.eraseP (· == v) = front ++ back := by
  obtain ⟨hpos, hmatch, -⟩ := List.findIdx?_eq_some_iff_getElem.mp h
  obtain ⟨y, front, back, hfront, hy, hxs, herase⟩ :=
    List.exists_of_eraseP (p := fun z => z == v) (List.getElem_mem hpos) hmatch
  have hbefore : ∀ z ∈ front, (z == v) = false := fun z hz => by simpa using hfront z hz
  have hnone : front.findIdx? (· == v) = none := List.findIdx?_eq_none_iff.mpr hbefore
  refine ⟨front, y, back, hxs, ?_, hy, hbefore, herase⟩
  rw [hxs, List.findIdx?_append, hnone, List.findIdx?_cons, hy] at h
  simpa using h

variable [EquivBEq α]

/-- Where a needle is found that `v` does not equal, after the first match of `v` is gone. -/
theorem findIdx?_eraseP_apart (h : xs.findIdx? (· == v) = some pos) (apart : (w == v) = false) :
    (xs.eraseP (· == v)).findIdx? (· == w) =
        (xs.findIdx? (· == w)).map (fun j => if j < pos then j else j - 1) ∧
      xs.findIdx? (· == w) ≠ some pos := by
  obtain ⟨front, y, back, rfl, rfl, hy, -, herase⟩ := cut_of_findIdx? h
  have hyw : (y == w) = false := by rw [BEq.congr_left hy, BEq.comm, apart]
  rw [herase, List.findIdx?_append, List.findIdx?_append, List.findIdx?_cons, hyw]
  cases hfront : front.findIdx? (· == w) with
  | some j =>
    obtain ⟨hj, -⟩ := List.findIdx?_eq_some_iff_getElem.mp hfront
    simp [hj, Nat.ne_of_lt hj]
  | none =>
    cases back.findIdx? (· == w) with
    | none => simp
    | some j => simp

/-- Where an equal needle is found: in the place of the second match. -/
theorem findIdx?_eraseP_equal (h : xs.findIdx? (· == v) = some pos) (equal : (w == v) = true) :
    (xs.eraseP (· == v)).findIdx? (· == w) = (xs.findIdxs (· == v))[1]?.map (· - 1) := by
  have hmatch : (fun z => z == w) = fun z => z == v := by
    funext z
    exact BEq.congr_right equal
  obtain ⟨front, y, back, rfl, rfl, hy, hfront, herase⟩ := cut_of_findIdx? h
  have hbefore : front.findIdx? (· == v) = none := List.findIdx?_eq_none_iff.mpr hfront
  have hpositions : (front ++ y :: back).findIdxs (· == v) =
      front.length :: back.findIdxs (· == v) (front.length + 1) := by
    rw [List.findIdxs_append, List.findIdxs_eq_nil_iff.mpr hfront, List.findIdxs_cons, hy]
    simp
  rw [herase, hpositions, List.getElem?_cons_succ, getElem?_zero_findIdxs, hmatch,
    List.findIdx?_append, hbefore]
  simp [Function.comp_def]

end

/-! ## Lists -/

/-- `after` is `before` without what stood at `pos`. -/
structure Closes (before after : LinkedList α) (pos : UInt64) : Prop where
  len : after.len.toNat + 1 = before.len.toNat
  front : ∀ k, k < pos → after.get k = before.get k
  back : ∀ k, pos ≤ k → k < after.len → after.get k = before.get (k + 1)

/-- Where elements are found in `after`, which is `before` without the first match of `v`, at
`pos`. -/
structure Reindexes [BEq α] (before after : LinkedList α) (v : α) (pos : UInt64) : Prop where
  apart : ∀ w j, (w == v) = false → before.index w = some j →
    (j < pos ∧ after.index w = some j) ∨ (pos < j ∧ after.index w = some (j - 1))
  absent : ∀ w, (w == v) = false → before.index w = none → after.index w = none
  /-- An equal needle is found where the second match has moved, if there was a second. -/
  equal : ∀ w, (w == v) = true → after.index w =
    (before.toList.findIdxs (· == v))[1]?.map fun second => (second - 1).toUInt64

/-- Where elements are found in `after`, which is `before` with `x` behind its last element. -/
structure Lengthens [BEq α] (before after : LinkedList α) (x : α) : Prop where
  found : ∀ w j, before.index w = some j → after.index w = some j
  absent : ∀ w, before.index w = none →
    after.index w = if x == w then some before.len else none

namespace LinkedList

variable [BEq α] {l : LinkedList α} {xs : List α}

theorem Holds.index_eq_some_iff (h : l.Holds xs) (x : α) (i : UInt64) :
    l.index x = some i ↔ xs.findIdx? (· == x) = some i.toNat := by
  rw [index_eq, h.elements, findIdx?_word_eq_some_iff h.length_lt]

theorem Holds.closes (h : l.Holds xs) {v : α} {pos : UInt64} (found : l.index v = some pos) :
    Closes l (l.remove v).value.after pos := by
  have hfind := (h.index_eq_some_iff v pos).mp found
  obtain ⟨hpos, -⟩ := List.findIdx?_eq_some_iff_getElem.mp hfind
  have hafter := h.remove v
  rw [List.eraseP_eq_eraseIdx, hfind] at hafter
  have hlength := List.length_eraseIdx_of_lt hpos
  refine ⟨?_, fun k hk => ?_, fun k hk hlt => ?_⟩
  · rw [hafter.count, h.count, hlength]
    omega
  · rw [hafter.get_eq, h.get_eq]
    exact fetch_eraseIdx_of_lt (UInt64.lt_iff_toNat_lt.mp hk) hpos
  · rw [UInt64.lt_iff_toNat_lt, hafter.count, hlength] at hlt
    rw [hafter.get_eq, h.get_eq]
    exact fetch_eraseIdx_of_ge (UInt64.le_iff_toNat_le.mp hk) (by omega) h.length_lt

theorem Holds.reindexes [EquivBEq α] (h : l.Holds xs) {v : α} {pos : UInt64}
    (found : l.index v = some pos) : Reindexes l (l.remove v).value.after v pos := by
  have hfind := (h.index_eq_some_iff v pos).mp found
  have hafter := h.remove v
  refine ⟨fun w j apart hj => ?_, fun w apart hnone => ?_, fun w equal => ?_⟩
  · obtain ⟨hmoved, hne⟩ := findIdx?_eraseP_apart hfind apart
    have hold := (h.index_eq_some_iff w j).mp hj
    rw [hold] at hmoved hne
    simp only [hafter.index_eq_some_iff, hmoved, UInt64.lt_iff_toNat_lt, Option.map_some,
      Option.some.injEq]
    by_cases hlt : j.toNat < pos.toNat
    · exact .inl ⟨hlt, by simp [hlt]⟩
    · have hgt : pos.toNat < j.toNat := by
        have hdistinct : j.toNat ≠ pos.toNat := fun e => hne (congrArg some e)
        omega
      refine .inr ⟨hgt, ?_⟩
      rw [if_neg hlt, UInt64.toNat_sub_of_le]
      · rfl
      · rw [UInt64.le_iff_toNat_le]
        exact Nat.succ_le_of_lt (Nat.lt_of_le_of_lt (Nat.zero_le _) hgt)
  · obtain ⟨hmoved, -⟩ := findIdx?_eraseP_apart hfind apart
    rw [index_eq, h.elements, Option.map_eq_none_iff] at hnone
    rw [index_eq, hafter.elements, hmoved, hnone]
    rfl
  · rw [index_eq, hafter.elements, findIdx?_eraseP_equal hfind equal, h.elements,
      Option.map_map]
    rfl

theorem Holds.lengthens (h : l.Holds xs) (x : α) : Lengthens l (l.append x).value x := by
  have hafter : (l.append x).value.toList = xs ++ [x] := by
    rw [append_eq l x (by rw [h.count, h.elements]), h.elements]
    exact Chain.toList_ofList _
  refine ⟨fun w j hj => ?_, fun w hnone => ?_⟩
  · rw [index_eq, h.elements] at hj
    obtain ⟨i, hi, rfl⟩ := Option.map_eq_some_iff.mp hj
    rw [index_eq, hafter, List.findIdx?_append, hi]
    rfl
  · rw [index_eq, h.elements, Option.map_eq_none_iff] at hnone
    rw [index_eq, hafter, List.findIdx?_append, hnone, h.len_eq, List.findIdx?_cons]
    cases x == w <;> simp

end LinkedList

/-- How positions move in every list that operations can build. A removal leaves the elements before
the one it takes where they are and moves those behind it up by one, so that every needle is found
where its first match has moved, or its second if the first is gone; an append moves nothing, and is
found at the end by the needles that nothing matched before and that it matches. -/
theorem positions_move [BEq α] (l : LinkedList α) (reachable : l.Reachable) :
    (∀ v pos, l.index v = some pos →
        Closes l (l.remove v).value.after pos ∧
          (EquivBEq α → Reindexes l (l.remove v).value.after v pos)) ∧
      ∀ x, Lengthens l (l.append x).value x := by
  have hl := reachable.holds
  refine ⟨fun v pos found => ⟨hl.closes found, fun equivalence => ?_⟩, hl.lengthens⟩
  exact hl.reindexes found

/-- The first of three texts goes: the second moves up, and so does the third, which is found in its
place; a fourth is found at the end. -/
theorem positions_move_caseless :
    ((LinkedList.ofList [⟨"Ab"⟩, ⟨"c"⟩, ⟨"aB"⟩]).value.remove
        (⟨"AB"⟩ : Caseless)).value.after.index ⟨"C"⟩ = some 0 ∧
      ((LinkedList.ofList [⟨"Ab"⟩, ⟨"c"⟩, ⟨"aB"⟩]).value.remove
        (⟨"AB"⟩ : Caseless)).value.after.index ⟨"ab"⟩ = some 1 ∧
      ((LinkedList.ofList [⟨"Ab"⟩, ⟨"c"⟩, ⟨"aB"⟩]).value.append
        (⟨"d"⟩ : Caseless)).value.index ⟨"D"⟩ = some 3 := by
  have hindex (x : Caseless) :
      (LinkedList.ofList [⟨"Ab"⟩, ⟨"c"⟩, ⟨"aB"⟩]).value.index x =
        ([⟨"Ab"⟩, ⟨"c"⟩, ⟨"aB"⟩].findIdx? (· == x)).map Nat.toUInt64 := by
    rw [LinkedList.index_eq, LinkedList.toList_ofList]
  have hfirst : (LinkedList.ofList [⟨"Ab"⟩, ⟨"c"⟩, ⟨"aB"⟩]).value.index
      (⟨"AB"⟩ : Caseless) = some 0 := by
    rw [hindex]
    simp [List.findIdx?_cons, Caseless.beq_eq]
  have hsecond : (LinkedList.ofList [⟨"Ab"⟩, ⟨"c"⟩, ⟨"aB"⟩]).value.index
      (⟨"C"⟩ : Caseless) = some 1 := by
    rw [hindex]
    simp [List.findIdx?_cons, Caseless.beq_eq]
  have hnone : (LinkedList.ofList [⟨"Ab"⟩, ⟨"c"⟩, ⟨"aB"⟩]).value.index
      (⟨"D"⟩ : Caseless) = none := by
    rw [hindex]
    simp [Caseless.beq_eq]
  obtain ⟨hremove, happend⟩ :=
    positions_move _ (.ofList [(⟨"Ab"⟩ : Caseless), ⟨"c"⟩, ⟨"aB"⟩] (by decide))
  obtain ⟨-, hmoves⟩ := hremove ⟨"AB"⟩ 0 hfirst
  have hequal := (hmoves inferInstance).equal ⟨"ab"⟩ (by rw [Caseless.beq_eq]; decide)
  have hapart := (hmoves inferInstance).apart ⟨"C"⟩ 1 (by rw [Caseless.beq_eq]; decide) hsecond
  have hnew := (happend ⟨"d"⟩).absent ⟨"D"⟩ hnone
  rw [LinkedList.toList_ofList] at hequal
  refine ⟨?_, ?_, ?_⟩
  · simpa using hapart
  · simpa [Caseless.beq_eq] using hequal
  · simpa [Caseless.beq_eq, LinkedList.ofList_eq] using hnew

end SeqStore
