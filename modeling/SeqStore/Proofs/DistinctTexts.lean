import SeqStore.Proofs.Congruence
import SeqStore.Proofs.DisplayText
import SeqStore.Proofs.Feed
import SeqStore.Proofs.Nested

/-!
Different values have different texts, if they are made of integers, lists and tuples. Separators
and brackets occur at every depth of a text, so the proof reads two texts side by side: where they
begin with the texts of two values, and what follows each is a separator, a closing bracket or
nothing, the values are the same and so is what follows them. With nothing behind, equal texts are
texts of one value.
-/

namespace SeqStore

variable {α : Type}

/-! ## Integers -/

namespace Text

theorem natural_injective {m n : Nat} (h : natural m = natural n) : m = n := by
  have hdigits : Nat.toDigits 10 m = Nat.toDigits 10 n := String.ofList_injective h
  rw [← Nat.ofDigitChars_ten_toDigits (n := m), hdigits, Nat.ofDigitChars_ten_toDigits]

private theorem natural_ne_minus (m : Nat) (s : String) : natural m ≠ "-" ++ s := by
  intro h
  have hmem : '-' ∈ (natural m).toList := by simp [h]
  exact absurd (isDigit_of_mem_natural hmem) (by decide)

theorem integer_injective {m n : Int} (h : integer m = integer n) : m = n := by
  cases m with
  | ofNat m =>
    cases n with
    | ofNat n => rw [natural_injective h]
    | negSucc n => exact absurd h (natural_ne_minus m _)
  | negSucc m =>
    cases n with
    | ofNat n => exact absurd h.symm (natural_ne_minus n _)
    | negSucc n =>
      have hdigits : natural (m + 1) = natural (n + 1) := (String.append_right_inj _).mp h
      rw [Nat.succ.inj (natural_injective hdigits)]

end Text

namespace Display

/-! ## Where a text ends -/

/-- Inside a container a text is followed by a comma or a closing bracket, otherwise by nothing. -/
def Ends (cs : List Char) : Prop := ∀ c ∈ cs.head?, c = ',' ∨ c = ']' ∨ c = ')'

theorem ends_nil : Ends [] := nofun

theorem ends_comma (cs : List Char) : Ends (',' :: cs) := by simp [Ends]

theorem ends_close {close : Char} (h : close = ']' ∨ close = ')') (cs : List Char) :
    Ends (close :: cs) := by simp [Ends, h]

section

variable [Display α]

/-- Among the values in question, `x` is told by the text that begins with its own, and so is where
that text ends. -/
def ToldBy (among : α → Prop) (x : α) : Prop :=
  ∀ ⦃y : α⦄ ⦃r s : List Char⦄, among y → Ends r → Ends s →
    (text x).toList ++ r = (text y).toList ++ s → x = y ∧ r = s

/-- The text begins, and not with a closing bracket. -/
def Opens (x : α) : Prop := ∃ c cs, (text x).toList = c :: cs ∧ c ≠ ']' ∧ c ≠ ')'

theorem Opens.ne_close {x : α} (h : Opens x) {close : Char} (hclose : close = ']' ∨ close = ')')
    (r s : List Char) : (text x).toList ++ r ≠ close :: s := by
  obtain ⟨c, cs, hchars, hsquare, hround⟩ := h
  rw [hchars, List.cons_append]
  intro heq
  obtain ⟨rfl, -⟩ := List.cons.inj heq
  rcases hclose with rfl | rfl
  · exact hsquare rfl
  · exact hround rfl

end

theorem text_int64 (n : Int64) : text n = Text.integer n.toInt := by
  simp [text, pieces]

theorem takeWhile_integer (n : Int) {r : List Char} (hr : Ends r) :
    ((Text.integer n).toList ++ r).takeWhile Text.isNumeral = (Text.integer n).toList := by
  have hrest : r.takeWhile Text.isNumeral = [] := by
    cases r with
    | nil => rfl
    | cons c cs => rcases hr c rfl with rfl | rfl | rfl <;> rfl
  rw [List.takeWhile_append_of_pos fun c hc => Text.isNumeral_of_mem_integer hc, hrest,
    List.append_nil]

theorem toldBy_int64 (n : Int64) : ToldBy (fun _ => True) n := by
  intro m r s _ hr hs h
  rw [text_int64, text_int64] at h
  have hdigits : (Text.integer n.toInt).toList = (Text.integer m.toInt).toList := by
    rw [← takeWhile_integer n.toInt hr, h, takeWhile_integer m.toInt hs]
  have hvalue := Text.integer_injective (String.toList_injective hdigits)
  rw [hdigits, List.append_cancel_left_eq] at h
  exact ⟨Int64.toInt_inj.mp hvalue, h⟩

theorem opens_of_integer {x : α} [Display α] {n : Int} (h : text x = Text.integer n) :
    Opens x := by
  obtain ⟨c, cs, hchars, hc⟩ := Text.integer_begins n
  refine ⟨c, cs, by rw [h, hchars], ?_, ?_⟩
  · rintro rfl
    cases hc
  · rintro rfl
    cases hc

/-! ## Sequences -/

section

variable [Display α] {among : α → Prop} {xs ys : List α} {r s : List Char} {close : Char}

/-- The texts that follow the first, each behind a comma and a blank. -/
def following (xs : List α) : List Char := xs.flatMap fun x => ',' :: ' ' :: (text x).toList

theorem toList_intercalate_cons (x : α) (xs : List α) :
    (", ".intercalate ((x :: xs).map text)).toList = (text x).toList ++ following xs := by
  induction xs generalizing x with
  | nil => simp [following]
  | cons y ys ih =>
    rw [List.map_cons, List.map_cons, String.intercalate_cons_cons, String.toList_append,
      String.toList_append, ← List.map_cons, ih]
    simp [following]

theorem ends_following (hclose : close = ']' ∨ close = ')') (xs : List α) (r : List Char) :
    Ends (following xs ++ close :: r) := by
  cases xs with
  | nil => exact ends_close hclose r
  | cons x xs => exact ends_comma _

private theorem comma_ne_close (hclose : close = ']' ∨ close = ')') : ',' ≠ close := by
  rcases hclose with rfl | rfl <;> decide

theorem following_inj (hclose : close = ']' ∨ close = ')') (hxs : ∀ x ∈ xs, ToldBy among x)
    (hys : ∀ y ∈ ys, among y)
    (h : following xs ++ close :: r = following ys ++ close :: s) : xs = ys ∧ r = s := by
  induction xs generalizing ys with
  | nil =>
    cases ys with
    | nil => exact ⟨rfl, (List.cons.inj h).2⟩
    | cons y ys => exact absurd (List.cons.inj h).1.symm (comma_ne_close hclose)
  | cons x xs ih =>
    cases ys with
    | nil => exact absurd (List.cons.inj h).1 (comma_ne_close hclose)
    | cons y ys =>
      simp only [following, List.flatMap_cons, List.cons_append, List.append_assoc,
        List.cons.injEq, true_and] at h
      -- the two texts end where the next comma or the bracket stands
      obtain ⟨rfl, hrest⟩ := hxs x List.mem_cons_self (hys y List.mem_cons_self)
        (ends_following hclose xs r) (ends_following hclose ys s) h
      obtain ⟨rfl, hafter⟩ := ih (fun x hx => hxs x (List.mem_cons_of_mem _ hx))
        (fun y hy => hys y (List.mem_cons_of_mem _ hy)) hrest
      exact ⟨rfl, hafter⟩

/-- The texts before a closing bracket tell the values, and where the bracket stands. -/
theorem intercalate_inj (hopens : ∀ x : α, Opens x) (hclose : close = ']' ∨ close = ')')
    (hxs : ∀ x ∈ xs, ToldBy among x) (hys : ∀ y ∈ ys, among y)
    (h : (", ".intercalate (xs.map text)).toList ++ close :: r =
      (", ".intercalate (ys.map text)).toList ++ close :: s) : xs = ys ∧ r = s := by
  cases xs with
  | nil =>
    cases ys with
    | nil => exact ⟨rfl, by simpa using h⟩
    | cons y ys =>
      rw [toList_intercalate_cons, List.append_assoc] at h
      exact absurd h.symm ((hopens y).ne_close hclose _ _)
  | cons x xs =>
    cases ys with
    | nil =>
      rw [toList_intercalate_cons, List.append_assoc] at h
      exact absurd h ((hopens x).ne_close hclose _ _)
    | cons y ys =>
      rw [toList_intercalate_cons, toList_intercalate_cons] at h
      -- put behind a comma and a blank, the first texts are like those that follow
      have hbehind : following (x :: xs) ++ close :: r = following (y :: ys) ++ close :: s := by
        simpa [following] using h
      exact following_inj hclose hxs hys hbehind

theorem toList_text_list (l : LinkedList α) :
    (text l).toList = '[' :: (", ".intercalate (l.toList.map text)).toList ++ [']'] := by
  rw [text_list, String.toList_append, String.toList_append]
  rfl

theorem toList_text_tuple (t : Tuple α) :
    (text t).toList = '(' :: (", ".intercalate (t.toList.map text)).toList ++ [')'] := by
  rw [text_tuple, String.toList_append, String.toList_append]
  rfl

theorem list_inj (hopens : ∀ x : α, Opens x) {l m : LinkedList α}
    (hl : ∀ x ∈ l.toList, ToldBy among x) (hm : ∀ y ∈ m.toList, among y)
    (h : (text l).toList ++ r = (text m).toList ++ s) : l.toList = m.toList ∧ r = s := by
  rw [toList_text_list, toList_text_list, List.append_assoc, List.append_assoc] at h
  exact intercalate_inj hopens (.inl rfl) hl hm (List.cons.inj h).2

theorem tuple_inj (hopens : ∀ x : α, Opens x) {t u : Tuple α}
    (ht : ∀ x ∈ t.toList, ToldBy among x) (hu : ∀ y ∈ u.toList, among y)
    (h : (text t).toList ++ r = (text u).toList ++ s) : t.toList = u.toList ∧ r = s := by
  rw [toList_text_tuple, toList_text_tuple, List.append_assoc, List.append_assoc] at h
  exact intercalate_inj hopens (.inr rfl) ht hu (List.cons.inj h).2

end

end Display

/-! ## Nested values -/

/-- Sequences in which only an element itself is equal to it are equal only if they are the same. -/
theorem alike_iff_eq [BEq α] {xs ys : List α}
    (h : ∀ x ∈ xs, ∀ y ∈ ys, (x == y ↔ x = y)) : Alike xs ys ↔ xs = ys := by
  induction xs generalizing ys with
  | nil => cases ys <;> simp
  | cons x xs ih =>
    cases ys with
    | nil => simp
    | cons y ys =>
      have hhead := h x List.mem_cons_self y List.mem_cons_self
      have htail := ih fun a ha b hb =>
        h a (List.mem_cons_of_mem _ ha) b (List.mem_cons_of_mem _ hb)
      calc
        Alike (x :: xs) (y :: ys) ↔ x == y ∧ Alike xs ys := List.forall₂_cons
        _ ↔ x = y ∧ xs = ys := and_congr hhead htail
        _ ↔ x :: xs = y :: ys := List.cons_eq_cons.symm

namespace Nested

/-- Made of integers, of lists that operations can build, and of tuples. -/
inductive Built : Nested → Prop
  | int (n : Int64) : Built (.int n)
  | list {l : LinkedList Nested} (reachable : l.Reachable)
      (elements : ∀ x ∈ l.toList, Built x) : Built (.list l)
  | tuple {t : Tuple Nested} (elements : ∀ x ∈ t.toList, Built x) : Built (.tuple t)

/-- The counter of a list says no more than its elements do. -/
private theorem list_eq_iff {l m : LinkedList Nested} (hl : l.Reachable) (hm : m.Reachable) :
    list l = list m ↔ l.toList = m.toList := by
  constructor
  · intro h
    rw [Nested.list.inj h]
  · intro h
    have hholds : m.Holds l.toList := by
      rw [h]
      exact hm.holds
    rw [hl.holds.unique hholds]

private theorem tuple_eq_iff (t u : Tuple Nested) : tuple t = tuple u ↔ t.toList = u.toList := by
  constructor
  · intro h
    rw [Nested.tuple.inj h]
  · intro h
    rw [Tuple.toList_inj h]

theorem Built.beq_iff {x y : Nested} (hx : x.Built) (hy : y.Built) : x == y ↔ x = y := by
  induction hx generalizing y with
  | int m =>
    cases hy with
    | int n =>
      rw [Nested.int.injEq]
      exact beq_iff_eq (a := m)
    | list _ _ | tuple _ => exact iff_of_false (fun h => by cases h) (fun h => by cases h)
  | @list l hl _ ih =>
    cases hy with
    | int _ | tuple _ => exact iff_of_false (fun h => by cases h) (fun h => by cases h)
    | @list m hm helements =>
      rw [beq_list, hl.holds.beq_eq hm.holds, beq_iff_alike, list_eq_iff hl hm]
      exact alike_iff_eq fun x hx y hy => ih x hx (helements y hy)
  | @tuple t _ ih =>
    cases hy with
    | int _ | list _ _ => exact iff_of_false (fun h => by cases h) (fun h => by cases h)
    | @tuple u helements =>
      rw [beq_tuple, Tuple.beq_eq, beq_iff_alike, tuple_eq_iff]
      exact alike_iff_eq fun x hx y hy => ih x hx (helements y hy)

theorem text_int (n : Int64) : Display.text (int n) = Text.integer n.toInt :=
  Display.text_int64 n

theorem opens (x : Nested) : Display.Opens x := by
  cases x with
  | int n => exact Display.opens_of_integer (text_int n)
  | list l =>
    rw [Display.Opens, text_list, Display.toList_text_list]
    exact ⟨'[', _, rfl, by decide, by decide⟩
  | tuple t =>
    rw [Display.Opens, text_tuple, Display.toList_text_tuple]
    exact ⟨'(', _, rfl, by decide, by decide⟩

/-- A text that starts as an integer does not start as a container. -/
private theorem integer_append_ne {c : Char} (hc : Text.isNumeral c = false) (n : Int)
    (r cs : List Char) : (Text.integer n).toList ++ r ≠ c :: cs := by
  obtain ⟨d, ds, hchars, hd⟩ := Text.integer_begins n
  rw [hchars, List.cons_append]
  intro h
  rw [(List.cons.inj h).1, hc] at hd
  cases hd

theorem Built.toldBy {x : Nested} (hx : x.Built) : Display.ToldBy Built x := by
  induction hx with
  | int m =>
    intro y r s hy hr hs h
    cases hy with
    | int n =>
      obtain ⟨rfl, hrest⟩ := Display.toldBy_int64 m trivial hr hs h
      exact ⟨rfl, hrest⟩
    | list _ _ =>
      rw [text_int, text_list, Display.toList_text_list] at h
      exact absurd h (integer_append_ne rfl _ _ _)
    | tuple _ =>
      rw [text_int, text_tuple, Display.toList_text_tuple] at h
      exact absurd h (integer_append_ne rfl _ _ _)
  | @list l hl _ ih =>
    intro y r s hy hr hs h
    cases hy with
    | int n =>
      rw [text_int, text_list, Display.toList_text_list] at h
      exact absurd h.symm (integer_append_ne rfl _ _ _)
    | @list m hm helements =>
      rw [text_list, text_list] at h
      obtain ⟨hsame, hrest⟩ := Display.list_inj opens ih helements h
      exact ⟨(list_eq_iff hl hm).mpr hsame, hrest⟩
    | tuple _ =>
      rw [text_list, text_tuple, Display.toList_text_list, Display.toList_text_tuple] at h
      exact absurd (List.cons.inj h).1 (by decide)
  | @tuple t _ ih =>
    intro y r s hy hr hs h
    cases hy with
    | int n =>
      rw [text_int, text_tuple, Display.toList_text_tuple] at h
      exact absurd h.symm (integer_append_ne rfl _ _ _)
    | list _ _ =>
      rw [text_list, text_tuple, Display.toList_text_list, Display.toList_text_tuple] at h
      exact absurd (List.cons.inj h).1 (by decide)
    | @tuple u helements =>
      rw [text_tuple, text_tuple] at h
      obtain ⟨hsame, hrest⟩ := Display.tuple_inj opens ih helements h
      exact ⟨(tuple_eq_iff t u).mpr hsame, hrest⟩

end Nested

theorem LinkedList.Reachable.beq_iff_text_eq {a b : LinkedList Int64} (ha : a.Reachable)
    (hb : b.Reachable) : a == b ↔ Display.text a = Display.text b := by
  have hopens (n : Int64) : Display.Opens n := Display.opens_of_integer (Display.text_int64 n)
  rw [ha.holds.beq_eq hb.holds, beq_iff_eq]
  constructor
  · intro h
    rw [Display.text_list, Display.text_list, h]
  · intro h
    have hchars : (Display.text a).toList ++ [] = (Display.text b).toList ++ [] := by rw [h]
    exact (Display.list_inj hopens (fun n _ => Display.toldBy_int64 n) (fun _ _ => trivial)
      hchars).1

/-- Values nested of integers, lists and tuples are equal exactly if their texts are the same, and
so are lists of integers. -/
theorem equal_iff_shown_alike :
    (∀ x y : Nested, x.Built → y.Built → (x == y ↔ Display.text x = Display.text y)) ∧
    ∀ a b : LinkedList Int64, a.Reachable → b.Reachable →
      (a == b ↔ Display.text a = Display.text b) := by
  constructor
  · intro x y hx hy
    rw [hx.beq_iff hy]
    constructor
    · intro h
      rw [h]
    · intro h
      have hchars : (Display.text x).toList ++ [] = (Display.text y).toList ++ [] := by rw [h]
      exact (hx.toldBy hy Display.ends_nil Display.ends_nil hchars).1
  · intro a b ha hb
    exact ha.beq_iff_text_eq hb

/-- An empty tuple in a list is not an empty list in it, and two digits are not two integers. -/
theorem equal_iff_shown_alike_lookalikes :
    ¬Nested.list (LinkedList.ofList [.int 1, .tuple (.ofList [])]).value ==
        Nested.list (LinkedList.ofList [.int 1, .list (LinkedList.ofList []).value]).value ∧
      ¬(LinkedList.ofList [(12 : Int64)]).value == (LinkedList.ofList [1, 2]).value := by
  obtain ⟨hnested, hintegers⟩ := equal_iff_shown_alike
  constructor
  · have hunit : (Nested.tuple (.ofList [])).Built := .tuple (by simp [Tuple.ofList, Tuple.toList])
    have hempty : (Nested.list (LinkedList.ofList []).value).Built :=
      .list (.ofList [] (by decide)) (by simp [LinkedList.toList_ofList])
    rw [hnested]
    · decide
    · refine .list (.ofList _ (by decide)) ?_
      simp [LinkedList.toList_ofList, Nested.Built.int, hunit]
    · refine .list (.ofList _ (by decide)) ?_
      simp [LinkedList.toList_ofList, Nested.Built.int, hempty]
  · rw [hintegers _ _ (.ofList _ (by decide)) (.ofList _ (by decide))]
    decide

end SeqStore
