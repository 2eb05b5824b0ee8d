import Mathlib.Data.List.Forall2
import SeqStore.Proofs.Congruence
import SeqStore.Proofs.Feed

/-!
Equality of lists and tuples. A list compares the counters and then walks both chains for as long
as both last, so that a wrong counter would make a chain equal to a longer one. The counters of the
lists that operations can build are right, and there equality is that of the elements, position by
position, as it is for tuples. Nothing is asked of the equality of elements: what it has of an
equivalence the containers have as well, and what it lacks they lack.
-/

namespace SeqStore

variable {α γ : Type}

/-- For the containers in question equality is equality at every position, and so it has what the
equality of elements has of an equivalence. -/
structure ComparesElements [BEq α] [BEq γ] (view : γ → List α) (among : γ → Prop) : Prop where
  positions : ∀ a b, among a → among b →
    (a == b ↔ (view a).length = (view b).length ∧
      ∀ i (ha : i < (view a).length) (hb : i < (view b).length), (view a)[i] == (view b)[i])
  refl : (∀ x : α, x == x) → ∀ a, among a → a == a
  symm : (∀ x y : α, x == y → y == x) → ∀ a b, among a → among b → a == b → b == a
  trans : (∀ x y z : α, x == y → y == z → x == z) →
    ∀ a b c, among a → among b → among c → a == b → b == c → a == c

theorem alike_iff_getElem [BEq α] (xs ys : List α) :
    Alike xs ys ↔ xs.length = ys.length ∧
      ∀ i (hx : i < xs.length) (hy : i < ys.length), xs[i] == ys[i] := by
  rw [Alike, List.forall₂_iff_get]
  rfl

/-- Whatever compares as the sequences of elements do, compares position by position. -/
theorem comparesElements_of_beq_eq [BEq α] [BEq γ] {view : γ → List α} {among : γ → Prop}
    (h : ∀ a b, among a → among b → (a == b) = (view a == view b)) :
    ComparesElements view among := by
  have hpositions : ∀ a b, among a → among b →
      (a == b ↔ (view a).length = (view b).length ∧
        ∀ i (ha : i < (view a).length) (hb : i < (view b).length), (view a)[i] == (view b)[i]) := by
    intro a b ha hb
    rw [h a b ha hb, beq_iff_alike, alike_iff_getElem]
  refine ⟨hpositions, ?_, ?_, ?_⟩
  · intro hrefl a ha
    exact (hpositions a a ha ha).mpr ⟨rfl, fun i _ _ => hrefl _⟩
  · intro hsymm a b ha hb hab
    obtain ⟨hlength, heach⟩ := (hpositions a b ha hb).mp hab
    exact (hpositions b a hb ha).mpr ⟨hlength.symm, fun i hib hia => hsymm _ _ (heach i hia hib)⟩
  · intro htrans a b c ha hb hc hab hbc
    obtain ⟨hlength, heach⟩ := (hpositions a b ha hb).mp hab
    obtain ⟨hlength', heach'⟩ := (hpositions b c hb hc).mp hbc
    refine (hpositions a c ha hc).mpr ⟨hlength.trans hlength', fun i hia hic => ?_⟩
    -- the sequence in the middle is as long as the other two
    have hib : i < (view b).length := by omega
    exact htrans _ _ _ (heach i hia hib) (heach' i hib hic)

namespace LinkedList

variable [BEq α]

theorem comparesElements : ComparesElements toList (Reachable : LinkedList α → Prop) :=
  comparesElements_of_beq_eq fun _ _ ha hb => ha.holds.beq_eq hb.holds

theorem Reachable.beq_eq_tuple {a b : LinkedList α} (ha : a.Reachable) (hb : b.Reachable) :
    (a == b) = (Tuple.ofList a.toList == Tuple.ofList b.toList) := by
  rw [ha.holds.beq_eq hb.holds, Tuple.beq_eq]
  rfl

/-- The copy has the counter of the list, so the elements decide. -/
theorem Reachable.beq_clone_iff {l : LinkedList α} (h : l.Reachable) (copy : α → α) :
    l == l.clone copy ↔ ∀ x ∈ l.toList, x == copy x := by
  rw [h.holds.beq_eq (h.holds.clone copy), beq_iff_alike, Alike, List.forall₂_map_right_iff,
    List.forall₂_same]

end LinkedList

namespace Tuple

theorem comparesElements [BEq α] : ComparesElements (toList : Tuple α → List α) (fun _ => True) :=
  comparesElements_of_beq_eq fun a b _ _ => a.beq_eq b

end Tuple

theorem nan_ne_self {x : Float} (h : x.isNaN) : (x == x) = false := by
  change x.toModel.unpack.isNaN = true at h
  change x.toModel.unpack.beq x.toModel.unpack = false
  cases hx : x.toModel.unpack with
  | notANumber => rfl
  | infinity | zero | finite =>
    rw [hx] at h
    cases h

/-- Equality of lists that operations can build is equality of their elements at every position, for
any equality of elements, which is to say that of the tuples of the same elements. It is reflexive,
symmetric or transitive if that of the elements is, and so is that of tuples. A list equals its
copy exactly if each element equals its own, and so not if one of them is not a number. -/
theorem equality_is_elementwise :
    (∀ (α : Type) [BEq α],
      ComparesElements LinkedList.toList (LinkedList.Reachable : LinkedList α → Prop) ∧
      ComparesElements (Tuple.toList : Tuple α → List α) (fun _ => True) ∧
      (∀ a b : LinkedList α, a.Reachable → b.Reachable →
        (a == b) = (Tuple.ofList a.toList == Tuple.ofList b.toList)) ∧
      ∀ (l : LinkedList α) (copy : α → α), l.Reachable →
        (l == l.clone copy ↔ ∀ x ∈ l.toList, x == copy x)) ∧
    ∀ l : LinkedList Float, l.Reachable → (∃ x ∈ l.toList, x.isNaN) → ¬l == l.clone id := by
  refine ⟨fun α _ => ⟨LinkedList.comparesElements, Tuple.comparesElements, ?_, ?_⟩, ?_⟩
  · intro a b ha hb
    exact ha.beq_eq_tuple hb
  · intro l copy hl
    exact hl.beq_clone_iff copy
  · intro l hl hnan hequal
    obtain ⟨x, hx, hisNaN⟩ := hnan
    have hself : x == x := (hl.beq_clone_iff id).mp hequal x hx
    rw [nan_ne_self hisNaN] at hself
    cases hself

/-- The two zeros are equal, also in lists. A list with what is not a number in it differs from its
copy. -/
theorem equality_is_elementwise_zeros_and_nan :
    (LinkedList.ofList [1.5, (0 : Float)]).value == (LinkedList.ofList [1.5, -0]).value ∧
      ¬(LinkedList.ofList [1.5, (0 / 0 : Float)]).value ==
        (LinkedList.ofList [1.5, (0 / 0 : Float)]).value.clone id := by
  obtain ⟨helementwise, hnan⟩ := equality_is_elementwise
  obtain ⟨hlists, -, -, -⟩ := helementwise Float
  constructor
  · rw [hlists.positions _ _ (.ofList _ (by decide)) (.ofList _ (by decide))]
    rw [LinkedList.toList_ofList, LinkedList.toList_ofList, ← alike_iff_getElem]
    exact .cons (by decide +kernel) (.cons (by decide +kernel) .nil)
  · refine hnan _ (.ofList _ (by decide)) ⟨0 / 0, ?_, by decide +kernel⟩
    rw [LinkedList.toList_ofList]
    simp

end SeqStore
