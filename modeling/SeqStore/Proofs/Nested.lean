import SeqStore.Element.Nested
import SeqStore.Proofs.Decode
import SeqStore.Proofs.LinkedList

/-!
Nested values by induction. A list or a tuple of nested values has what each of its elements has;
with that principle, the recursive functions on nested values are stated through the elements,
and the nodes and arrays that the elements lie in are not seen again.
-/

namespace SeqStore.Nested

/-- What holds of integers, and of lists and tuples whose elements have it, holds of all. -/
theorem induct {motive : Nested → Prop} (int : ∀ n, motive (.int n))
    (list : ∀ l : LinkedList Nested, (∀ x ∈ l.toList, motive x) → motive (.list l))
    (tuple : ∀ t : Tuple Nested, (∀ x ∈ t.toList, motive x) → motive (.tuple t)) (x : Nested) :
    motive x :=
  -- one motive for each type that the elements of a container pass through
  @Nested.rec motive (fun l => ∀ x ∈ l.toList, motive x) (fun t => ∀ x ∈ t.toList, motive x)
    (fun c => ∀ x ∈ c.toList, motive x) (fun xs => ∀ x ∈ xs.toList, motive x)
    (fun xs => ∀ x ∈ xs, motive x) int (fun l hl => list l hl) (fun t ht => tuple t ht)
    (fun _ _ hc => hc) (fun _ hxs => hxs) nofun
    (fun _ _ hx hc => List.forall_mem_cons.mpr ⟨hx, hc⟩) (fun _ hxs => hxs) nofun
    (fun _ _ hx hxs => List.forall_mem_cons.mpr ⟨hx, hxs⟩) x

/-! ## Equality -/

private theorem chainBeq_eq (a b : Chain Nested) : chainBeq a b = a.agree b := by
  induction a generalizing b with
  | empty => rw [chainBeq, Chain.agree] <;> simp
  | node x as ih =>
    cases b with
    | empty => rw [chainBeq, Chain.agree] <;> simp
    | node y bs =>
      rw [chainBeq, Chain.agree, ih]
      rfl

private theorem listBeq_eq (xs ys : List Nested) : listBeq xs ys = (xs == ys) := by
  induction xs generalizing ys with
  | nil => cases ys <;> rfl
  | cons x xs ih =>
    cases ys with
    | nil => rfl
    | cons y ys =>
      rw [listBeq, ih]
      rfl

/-- Lists inside values are compared as lists on their own. -/
theorem beq_list (a b : LinkedList Nested) : (list a == list b) = (a == b) := by
  change beq (list a) (list b) = (a.len == b.len && a.head.agree b.head)
  rw [beq, chainBeq_eq]

theorem beq_tuple (a b : Tuple Nested) : (tuple a == tuple b) = (a == b) := by
  change beq (tuple a) (tuple b) = (a.elements == b.elements)
  rw [beq, listBeq_eq]
  simp

/-! ## Folds -/

section

variable {β : Type} (int : Int64 → β) (list tuple : List β → β)

private theorem foldChain_eq (c : Chain Nested) :
    foldChain int list tuple c = c.toList.map (fold int list tuple) := by
  induction c with
  | empty => rfl
  | node x next ih => rw [foldChain, ih, Chain.toList, List.map_cons]

private theorem foldList_eq (xs : List Nested) :
    foldList int list tuple xs = xs.map (fold int list tuple) := by
  induction xs with
  | nil => rfl
  | cons x xs ih => rw [foldList, ih, List.map_cons]

theorem fold_int (n : Int64) : fold int list tuple (.int n) = int n := by rw [fold]

theorem fold_list (l : LinkedList Nested) :
    fold int list tuple (.list l) = list (l.toList.map (fold int list tuple)) := by
  rw [fold, foldChain_eq, LinkedList.toList]

theorem fold_tuple (t : Tuple Nested) :
    fold int list tuple (.tuple t) = tuple (t.toList.map (fold int list tuple)) := by
  rw [fold, foldList_eq, Tuple.toList]

end

/-! ## Text -/

/-- A list inside a value is shown as a list on its own. -/
theorem pieces_list (l : LinkedList Nested) : Display.pieces (list l) = Display.pieces l := by
  change pieces (list l) = Display.bracketed (l.toList.map pieces)
  exact fold_list ..

theorem pieces_tuple (t : Tuple Nested) : Display.pieces (tuple t) = Display.pieces t := by
  change pieces (tuple t) = Display.parenthesised (t.toList.map pieces)
  exact fold_tuple ..

theorem text_list (l : LinkedList Nested) : Display.text (list l) = Display.text l := by
  rw [Display.text, pieces_list, Display.text]

theorem text_tuple (t : Tuple Nested) : Display.text (tuple t) = Display.text t := by
  rw [Display.text, pieces_tuple, Display.text]

/-! ## JSON -/

theorem toJson_int (n : Int64) : (int n).toJson = .int n.toInt := fold_int ..

theorem toJson_list (l : LinkedList Nested) : (list l).toJson = .array (l.toList.map toJson) :=
  fold_list ..

theorem toJson_tuple (t : Tuple Nested) : (tuple t).toJson = .array (t.toList.map toJson) :=
  fold_tuple ..

private theorem decodeEach_eq (items : List Json) : decodeEach items = Decode.each decode items := by
  induction items with
  | nil => rfl
  | cons v vs ih => rw [decodeEach, ih, Decode.each]

/-- An array is decoded as a list, like a list on its own. -/
theorem decode_array (items : List Json) :
    decode (.array items) = list <$> (Decode.decode (.array items) : Decoder (LinkedList Nested)) := by
  rw [decode, decodeEach_eq]
  simp [Decode.decode, Decode.sequence]

/-! ## Depth -/

/-- The depth of a container from those of its elements. -/
def depthAround (depths : List Nat) : Nat := depths.max?.getD 0 + 1

/-- How many lists and tuples lie in one another at most. -/
def depth : Nested → Nat := fold (fun _ => 0) depthAround depthAround

theorem depth_list (l : LinkedList Nested) : (list l).depth = depthAround (l.toList.map depth) :=
  fold_list ..

theorem depth_tuple (t : Tuple Nested) : (tuple t).depth = depthAround (t.toList.map depth) :=
  fold_tuple ..

theorem depth_lt_depthAround {xs : List Nested} {x : Nested} (h : x ∈ xs) :
    x.depth < depthAround (xs.map depth) :=
  Nat.lt_succ_of_le (List.le_max?_getD_of_mem (List.mem_map_of_mem h))

/-! ## Lists in the place of tuples -/

/-- The same value with a list in the place of every tuple in it. -/
def listed : Nested → Nested :=
  fold .int (fun xs => .list (LinkedList.ofList xs).value)
    (fun xs => .list (LinkedList.ofList xs).value)

theorem listed_int (n : Int64) : (int n).listed = .int n := fold_int ..

theorem listed_list (l : LinkedList Nested) :
    (list l).listed = .list (LinkedList.ofList (l.toList.map listed)).value :=
  fold_list ..

theorem listed_tuple (t : Tuple Nested) :
    (tuple t).listed = .list (LinkedList.ofList (t.toList.map listed)).value :=
  fold_tuple ..

/-- Made of integers and lists alone, of which each counts its elements right. -/
inductive Tupleless : Nested → Prop
  | int (n : Int64) : Tupleless (.int n)
  | list {l : LinkedList Nested} (counts : l.Holds l.toList)
      (elements : ∀ x ∈ l.toList, Tupleless x) : Tupleless (.list l)

theorem Tupleless.listed_eq {x : Nested} (h : x.Tupleless) : x.listed = x := by
  induction h with
  | int n => exact listed_int n
  | @list l counts _ ih =>
    have hmap : l.toList.map listed = l.toList.map id := List.map_congr_left ih
    rw [List.map_id] at hmap
    rw [listed_list, hmap]
    exact congrArg Nested.list (counts.unique (LinkedList.holds_ofList l.toList counts.length_lt)).symm

end SeqStore.Nested
