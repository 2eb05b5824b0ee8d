import Mathlib.Data.List.TakeWhile
import SeqStore.Element.Caseless
import SeqStore.Proofs.Nested

/-!
Containers from JSON values, in document order. Reading goes through the values of a document
from left to right and comes to the end of an array after its items. The first value that is
refused decides the error, and the arrays that ended before it as lists are those in the log.
Lists and tuples differ in one thing only: a list ends as a list itself.
-/

namespace SeqStore

variable {α β : Type}

/-! ## Visits -/

/-- What reading comes across. -/
inductive Visit where
  /-- A value that is read as it stands. -/
  | leaf (v : Json)
  /-- The end of an array of `count` items that is read as a list. -/
  | closed (count : Nat)

/-- What is noted of a visit. -/
def Visit.note : Visit → Option Event
  | .leaf _ => none
  | .closed count => some (.extended count.toUInt64 count.toUInt64)

/-- How elements of one kind lie in JSON. -/
structure Scheme (α : Type) where
  /-- What reading an element comes across, in document order. -/
  visits : Json → List Visit
  /-- Why a leaf is refused, if it is. -/
  refusal : Json → Option DecodeError
  /-- The element that a value stands for. -/
  Denotes : Json → α → Prop

namespace Scheme

/-- Why a visit is the last one, if it is. -/
def stop (g : Scheme α) : Visit → Option DecodeError
  | .leaf v => g.refusal v
  | .closed _ => none

/-- The error of the first leaf that is refused. -/
def firstRefusal (g : Scheme α) (visits : List Visit) : Option DecodeError :=
  visits.findSome? g.stop

/-- The log of the lists that end before the first leaf that is refused. -/
def completed (g : Scheme α) (visits : List Visit) : List Event :=
  (visits.takeWhile fun visit => (g.stop visit).isNone).filterMap Visit.note

/-- No leaf of the value is refused. -/
def Accepts (g : Scheme α) (v : Json) : Prop := g.firstRefusal (g.visits v) = none

theorem firstRefusal_append (g : Scheme α) (first second : List Visit) :
    g.firstRefusal (first ++ second) = (g.firstRefusal first).or (g.firstRefusal second) :=
  List.findSome?_append

theorem firstRefusal_closed (g : Scheme α) (visits : List Visit) (count : Nat) :
    g.firstRefusal (visits ++ [.closed count]) = g.firstRefusal visits := by
  rw [firstRefusal_append]
  exact Option.or_none

theorem firstRefusal_flatMap_eq_none_iff {g : Scheme α} {items : List Json} :
    g.firstRefusal (items.flatMap g.visits) = none ↔ ∀ item ∈ items, g.Accepts item := by
  induction items with
  | nil => simp [firstRefusal]
  | cons item items ih =>
    rw [List.flatMap_cons, firstRefusal_append, Option.or_eq_none_iff, ih, List.forall_mem_cons]
    rfl

theorem completed_append_of_none {g : Scheme α} {first : List Visit}
    (h : g.firstRefusal first = none) (second : List Visit) :
    g.completed (first ++ second) = g.completed first ++ g.completed second := by
  have hall : ∀ visit ∈ first, (g.stop visit).isNone := by
    intro visit hvisit
    rw [List.findSome?_eq_none_iff.mp h visit hvisit]
    rfl
  have hfirst : first.takeWhile (fun visit => (g.stop visit).isNone) = first :=
    List.takeWhile_eq_self_iff.mpr hall
  unfold completed
  rw [List.takeWhile_append_of_pos hall, List.filterMap_append, hfirst]

/-- Nothing after a refusal is noted. -/
theorem completed_append_of_some {g : Scheme α} {first : List Visit} {error : DecodeError}
    (h : g.firstRefusal first = some error) (second : List Visit) :
    g.completed (first ++ second) = g.completed first := by
  unfold completed
  congr 1
  induction first with
  | nil => cases h
  | cons visit rest ih =>
    rw [List.cons_append, List.takeWhile_cons, List.takeWhile_cons]
    cases hvisit : g.stop visit with
    | some _ => rfl
    | none =>
      have hrest : g.firstRefusal rest = some error := by
        simpa only [firstRefusal, List.findSome?_cons, hvisit] using h
      simp only [Option.isNone_none, ↓reduceIte, ih hrest]

/-! ## Reading along the visits -/

/-- A reading that makes the visits up to the first refusal, and fails with it or comes to the
right result. -/
structure Follows (g : Scheme α) (visits : List Visit) (Right : β → Prop) (reading : Decoder β) :
    Prop where
  log : reading.run.log = g.completed visits
  refused : ∀ error, g.firstRefusal visits = some error → reading.run.value = .error error
  accepted : g.firstRefusal visits = none → ∃ x, reading.run.value = .ok x ∧ Right x

private theorem firstRefusal_leaf (g : Scheme α) (v : Json) :
    g.firstRefusal [.leaf v] = g.refusal v := by
  simp [firstRefusal, stop]

private theorem completed_leaf (g : Scheme α) (v : Json) : g.completed [.leaf v] = [] := by
  cases h : g.refusal v <;> simp [completed, stop, h, Visit.note]

theorem follows_refused {g : Scheme α} {v : Json} {error : DecodeError} {Right : β → Prop}
    {reading : Decoder β} (hrefusal : g.refusal v = some error)
    (hreading : reading.run = ⟨.error error, []⟩) : g.Follows [.leaf v] Right reading := by
  refine ⟨?_, ?_, ?_⟩
  · rw [hreading, completed_leaf]
  · intro error' herror
    rw [firstRefusal_leaf, hrefusal, Option.some.injEq] at herror
    rw [hreading, herror]
  · intro hnone
    rw [firstRefusal_leaf, hrefusal] at hnone
    cases hnone

theorem follows_accepted {g : Scheme α} {v : Json} {x : β} {Right : β → Prop}
    {reading : Decoder β} (hrefusal : g.refusal v = none) (hreading : reading.run = ⟨.ok x, []⟩)
    (hx : Right x) : g.Follows [.leaf v] Right reading := by
  refine ⟨?_, ?_, ?_⟩
  · rw [hreading, completed_leaf]
  · intro error herror
    rw [firstRefusal_leaf, hrefusal] at herror
    cases herror
  · exact fun _ => ⟨x, by rw [hreading], hx⟩

section

variable [Decode α] {g : Scheme α}

/-- Items are read one after the other, up to the first refusal in any of them. -/
theorem follows_each (items : List Json)
    (h : ∀ item ∈ items, g.Follows (g.visits item) (g.Denotes item) (Decode.decode item)) :
    g.Follows (items.flatMap g.visits) (List.Forall₂ g.Denotes items)
      (Decode.each Decode.decode items) := by
  induction items with
  | nil => exact ⟨rfl, nofun, fun _ => ⟨[], rfl, .nil⟩⟩
  | cons item items ih =>
    obtain ⟨hitem, hitems⟩ := List.forall_mem_cons.mp h
    have hrest := ih hitems
    rw [List.flatMap_cons]
    cases hfirst : g.firstRefusal (g.visits item) with
    | some error =>
      have hvalue := hitem.refused error hfirst
      refine ⟨?_, ?_, ?_⟩
      · rw [Decode.each_cons_log, hvalue, hitem.log, completed_append_of_some hfirst,
          List.append_nil]
      · intro error' herror
        rw [firstRefusal_append, hfirst, Option.some_or, Option.some.injEq] at herror
        rw [Decode.each_cons_value, hvalue, herror]
      · intro hnone
        rw [firstRefusal_append, hfirst] at hnone
        cases hnone
    | none =>
      obtain ⟨x, hvalue, hx⟩ := hitem.accepted hfirst
      have hor : g.firstRefusal (g.visits item ++ items.flatMap g.visits) =
          g.firstRefusal (items.flatMap g.visits) := by
        rw [firstRefusal_append, hfirst, Option.none_or]
      refine ⟨?_, ?_, ?_⟩
      · rw [Decode.each_cons_log, hvalue, hitem.log, hrest.log, completed_append_of_none hfirst]
      · intro error herror
        rw [hor] at herror
        rw [Decode.each_cons_value, hvalue, hrest.refused error herror]
        rfl
      · intro hnone
        rw [hor] at hnone
        obtain ⟨xs, hxs, hdenotes⟩ := hrest.accepted hnone
        refine ⟨x :: xs, ?_, .cons hx hdenotes⟩
        rw [Decode.each_cons_value, hvalue, hxs]
        rfl

/-- A list is read item by item and then ends itself. -/
theorem follows_list (items : List Json)
    (h : ∀ item ∈ items, g.Follows (g.visits item) (g.Denotes item) (Decode.decode item)) :
    g.Follows (items.flatMap g.visits ++ [.closed items.length])
      (fun l => ∃ xs, List.Forall₂ g.Denotes items xs ∧ l = (LinkedList.ofList xs).value)
      (Decode.decode (.array items) : Decoder (LinkedList α)) := by
  have heach := follows_each items h
  refine ⟨?_, ?_, ?_⟩
  · rw [Decode.list_log, Decode.sequence, heach.log]
    cases hfirst : g.firstRefusal (items.flatMap g.visits) with
    | some error =>
      rw [heach.refused error hfirst, completed_append_of_some hfirst, List.append_nil]
    | none =>
      obtain ⟨xs, hxs, hdenotes⟩ := heach.accepted hfirst
      rw [hxs, completed_append_of_none hfirst, hdenotes.length_eq]
      simp only [LinkedList.ofList_eq]
      rfl
  · intro error herror
    rw [firstRefusal_closed] at herror
    rw [Decode.list_value, Decode.sequence, heach.refused error herror]
    rfl
  · intro hnone
    rw [firstRefusal_closed] at hnone
    obtain ⟨xs, hxs, hdenotes⟩ := heach.accepted hnone
    refine ⟨_, ?_, xs, hdenotes, rfl⟩
    rw [Decode.list_value, Decode.sequence, hxs]
    rfl

end

end Scheme

/-! ## Kinds of elements -/

mutual

/-- What reading a nested value comes across: the leaves in it, and the arrays as they end. -/
def Json.visits : Json → List Visit
  | .array items => visitsEach items ++ [.closed items.length]
  | v => [.leaf v]

def Json.visitsEach : List Json → List Visit
  | [] => []
  | v :: vs => visits v ++ visitsEach vs

end

private theorem Json.visitsEach_eq (items : List Json) : visitsEach items = items.flatMap visits := by
  induction items with
  | nil => rfl
  | cons v vs ih => rw [visitsEach, ih, List.flatMap_cons]

theorem Json.visits_array (items : List Json) :
    (Json.array items).visits = items.flatMap visits ++ [.closed items.length] := by
  rw [visits, visitsEach_eq]

/-- What holds of all that is no array, and of arrays whose items have it, holds of all. -/
theorem Json.induct {motive : Json → Prop}
    (leaf : ∀ v, (∀ items, v ≠ .array items) → motive v)
    (array : ∀ items, (∀ v ∈ items, motive v) → motive (.array items)) (v : Json) : motive v :=
  -- the members of an object are not looked into
  @Json.rec motive (fun items => ∀ v ∈ items, motive v) (fun _ => True) (fun _ => True)
    (leaf _ nofun) (fun _ => leaf _ nofun) (fun _ => leaf _ nofun) (fun _ => leaf _ nofun)
    (fun _ => leaf _ nofun) array (fun _ _ => leaf _ nofun) nofun
    (fun _ _ hv hvs => List.forall_mem_cons.mpr ⟨hv, hvs⟩) trivial (fun _ _ _ _ => trivial)
    (fun _ _ _ => trivial) v

namespace Scheme

/-- An element that is a leaf. -/
def single (refusal : Json → Option DecodeError) (Denotes : Json → α → Prop) : Scheme α where
  visits v := [.leaf v]
  refusal := refusal
  Denotes := Denotes

def integers : Scheme Int64 :=
  single
    (fun
      | .int n => if Element.FitsInt64 n then none else some (.beyondRange n .integer)
      | v => some (.wrongType v .integer))
    (fun v n => v = .int n.toInt)

def bytes : Scheme UInt8 :=
  single
    (fun
      | .int n => if 0 ≤ n ∧ n ≤ 255 then none else some (.beyondRange n .byte)
      | v => some (.wrongType v .byte))
    (fun v n => v = .int n.toNat)

def texts : Scheme String :=
  single
    (fun
      | .string _ => none
      | v => some (.wrongType v .text))
    (fun v s => v = .string s)

def caselessTexts : Scheme Caseless :=
  single
    (fun
      | .string s => if s = "" then some .emptyCaseless else none
      | v => some (.wrongType v .text))
    (fun v c => v = .string c.text)

/-- An integer, or an array that is read as a list; nothing else is a nested value, and an
integer that does not fit is refused like a value of another kind. -/
def nestedValues : Scheme Nested where
  visits := Json.visits
  refusal
    | .int n => if Element.FitsInt64 n then none else some (.wrongType (.int n) .sequence)
    | v => some (.wrongType v .sequence)
  -- the value that has this JSON and has no tuple in it
  Denotes v x := x.toJson = v ∧ x.listed = x

/-- Every value is read as the scheme has it. -/
def Fits [Decode α] (g : Scheme α) : Prop :=
  ∀ v, g.Follows (g.visits v) (g.Denotes v) (Decode.decode v)

private theorem toInt_ofInt {n : Int} (h : Element.FitsInt64 n) : (Int64.ofInt n).toInt = n :=
  Int64.toInt_ofInt_of_le h.1 (Int.lt_of_le_sub_one h.2)

theorem integers_fits : integers.Fits := by
  intro v
  cases v with
  | int n =>
    by_cases h : Element.FitsInt64 n
    · refine follows_accepted (if_pos h) ?_ (congrArg Json.int (toInt_ofInt h).symm)
      simp only [Decode.decode, Element.int64, h, ↓reduceIte]
      rfl
    · refine follows_refused (if_neg h) ?_
      simp only [Decode.decode, Element.int64, h, ↓reduceIte]
      rfl
  | null | bool | float | string | array | object => exact follows_refused rfl rfl

theorem bytes_fits : bytes.Fits := by
  intro v
  cases v with
  | int n =>
    by_cases h : 0 ≤ n ∧ n ≤ 255
    · have hn : ((UInt8.ofNat n.toNat).toNat : Int) = n := by
        rw [UInt8.toNat_ofNat_of_lt' (by unfold UInt8.size; omega)]
        exact Int.toNat_of_nonneg h.1
      refine follows_accepted (if_pos h) ?_ (congrArg Json.int hn.symm)
      simp only [Decode.decode, Element.byte, h, and_self, ↓reduceIte]
      rfl
    · refine follows_refused (if_neg h) ?_
      simp only [Decode.decode, Element.byte, h, ↓reduceIte]
      rfl
  | null | bool | float | string | array | object => exact follows_refused rfl rfl

theorem texts_fits : texts.Fits := by
  intro v
  cases v with
  | string s => exact follows_accepted rfl rfl rfl
  | null | bool | int | float | array | object => exact follows_refused rfl rfl

theorem caselessTexts_fits : caselessTexts.Fits := by
  intro v
  cases v with
  | string s =>
    by_cases h : s = ""
    · subst h
      exact follows_refused rfl rfl
    · refine follows_accepted (if_neg h) ?_ (rfl : Json.string s = .string (Caseless.mk s).text)
      change (Caseless.decode (.string s)).run = _
      simp only [Caseless.decode, Element.text, pure_bind, String.isEmpty_iff, h, ↓reduceIte]
      rfl
  | null | bool | int | float | array | object => exact follows_refused rfl rfl

private theorem denotes_items {items : List Json} {xs : List Nested}
    (h : List.Forall₂ nestedValues.Denotes items xs) :
    xs.map Nested.toJson = items ∧ xs.map Nested.listed = xs := by
  induction h with
  | nil => exact ⟨rfl, rfl⟩
  | cons hx _ ih => exact ⟨by rw [List.map_cons, hx.1, ih.1], by rw [List.map_cons, hx.2, ih.2]⟩

theorem nestedValues_fits : nestedValues.Fits := by
  intro v
  induction v using Json.induct with
  | leaf v hv =>
    cases v with
    | int n =>
      by_cases h : Element.FitsInt64 n
      · refine follows_accepted (if_pos h) (x := .int (Int64.ofInt n)) ?_ ⟨?_, ?_⟩
        · simp only [Decode.decode, Nested.decode, h, ↓reduceIte]
          rfl
        · rw [Nested.toJson_int, toInt_ofInt h]
        · exact Nested.listed_int _
      · refine follows_refused (if_neg h) ?_
        simp only [Decode.decode, Nested.decode, h, ↓reduceIte]
        rfl
    | array items => exact absurd rfl (hv items)
    | null | bool | float | string | object => exact follows_refused rfl rfl
  | array items ih =>
    have hlist := follows_list items ih
    change nestedValues.Follows (Json.array items).visits _ (Nested.decode (.array items))
    rw [Json.visits_array, Nested.decode_array]
    refine ⟨?_, ?_, ?_⟩
    · rw [ExceptT.run_map, Traced.log_map]
      exact hlist.log
    · intro error herror
      rw [ExceptT.run_map, Traced.value_map, hlist.refused error herror]
      rfl
    · intro hnone
      obtain ⟨l, hl, xs, hdenotes, rfl⟩ := hlist.accepted hnone
      refine ⟨.list (LinkedList.ofList xs).value, ?_, ?_⟩
      · rw [ExceptT.run_map, Traced.value_map, hl]
        rfl
      · obtain ⟨hjson, hlisted⟩ := denotes_items hdenotes
        constructor
        · rw [Nested.toJson_list, LinkedList.toList_ofList, hjson]
        · rw [Nested.listed_list, LinkedList.toList_ofList, hlisted]

/-! ## Containers -/

/-- Why no container is read from a value, if none is. -/
def verdict (g : Scheme α) : Json → Option DecodeError
  | .array items => g.firstRefusal (items.flatMap g.visits)
  | v => some (.wrongType v .sequence)

/-- The lists that are completed inside a value. -/
def innerLists (g : Scheme α) : Json → List Event
  | .array items => g.completed (items.flatMap g.visits)
  | _ => []

/-- The lists that are completed if the value is one itself. -/
def lists (g : Scheme α) : Json → List Event
  | .array items => g.completed (items.flatMap g.visits ++ [.closed items.length])
  | _ => []

/-- An array of acceptable items. -/
def AcceptsAll (g : Scheme α) (v : Json) : Prop :=
  ∃ items, v = .array items ∧ ∀ item ∈ items, g.Accepts item

/-- What comes of reading a list and of reading a tuple from the same value. -/
structure Governs (g : Scheme α) (v : Json) (list : Decoder (LinkedList α))
    (tuple : Decoder (Tuple α)) : Prop where
  /-- Both are read from an array of acceptable items and from nothing else. -/
  list_iff : (∃ l, list.run.value = .ok l) ↔ g.AcceptsAll v
  tuple_iff : (∃ t, tuple.run.value = .ok t) ↔ g.AcceptsAll v
  /-- Both hold the elements that the items stand for, in their order, and the list counts
  them. -/
  elements : g.AcceptsAll v → ∃ items xs l t, v = .array items ∧ List.Forall₂ g.Denotes items xs ∧
    list.run.value = .ok l ∧ tuple.run.value = .ok t ∧
    l.toList = xs ∧ l.len = xs.length.toUInt64 ∧ t.toList = xs
  /-- Both fail with the same error. -/
  refused : ¬ g.AcceptsAll v → ∃ error, g.verdict v = some error ∧
    list.run.value = .error error ∧ tuple.run.value = .error error
  list_log : list.run.log = g.lists v
  tuple_log : tuple.run.log = g.innerLists v

theorem verdict_eq_none_iff {g : Scheme α} {v : Json} : g.verdict v = none ↔ g.AcceptsAll v := by
  cases v with
  | array items => simp [verdict, AcceptsAll, firstRefusal_flatMap_eq_none_iff]
  | null | bool | int | float | string | object => simp [verdict, AcceptsAll]

section

variable [Decode α] {g : Scheme α}

private theorem read_refused (fits : g.Fits) {v : Json} {error : DecodeError}
    (h : g.verdict v = some error) :
    (Decode.decode v : Decoder (LinkedList α)).run.value = .error error ∧
      (Decode.decode v : Decoder (Tuple α)).run.value = .error error := by
  cases v with
  | array items =>
    have heach := follows_each items fun item _ => fits item
    rw [Decode.list_value, Decode.tuple_value, Decode.sequence, heach.refused error h]
    exact ⟨rfl, rfl⟩
  | null | bool | int | float | string | object =>
    cases h
    exact ⟨rfl, rfl⟩

private theorem read_accepted (fits : g.Fits) {v : Json} (h : g.verdict v = none) :
    ∃ items xs, v = .array items ∧ List.Forall₂ g.Denotes items xs ∧
      (Decode.decode v : Decoder (LinkedList α)).run.value = .ok (LinkedList.ofList xs).value ∧
      (Decode.decode v : Decoder (Tuple α)).run.value = .ok (Tuple.ofList xs) := by
  obtain ⟨items, rfl, -⟩ := verdict_eq_none_iff.mp h
  have heach := follows_each items fun item _ => fits item
  obtain ⟨xs, hxs, hdenotes⟩ := heach.accepted h
  refine ⟨items, xs, rfl, hdenotes, ?_⟩
  rw [Decode.list_value, Decode.tuple_value, Decode.sequence, hxs]
  exact ⟨rfl, rfl⟩

private theorem read_logs (fits : g.Fits) (v : Json) :
    (Decode.decode v : Decoder (LinkedList α)).run.log = g.lists v ∧
      (Decode.decode v : Decoder (Tuple α)).run.log = g.innerLists v := by
  cases v with
  | array items =>
    have heach := follows_each items fun item _ => fits item
    have hlist := follows_list items fun item _ => fits item
    rw [Decode.tuple_log, Decode.sequence]
    exact ⟨hlist.log, heach.log⟩
  | null | bool | int | float | string | object => exact ⟨rfl, rfl⟩

theorem governs_of_fits (fits : g.Fits) (v : Json) :
    g.Governs v (Decode.decode v) (Decode.decode v) := by
  obtain ⟨hlistLog, htupleLog⟩ := read_logs fits v
  cases h : g.verdict v with
  | none =>
    have hall := verdict_eq_none_iff.mp h
    obtain ⟨items, xs, hv, hdenotes, hlist, htuple⟩ := read_accepted fits h
    exact {
      list_iff := iff_of_true ⟨_, hlist⟩ hall
      tuple_iff := iff_of_true ⟨_, htuple⟩ hall
      elements := fun _ => ⟨items, xs, _, _, hv, hdenotes, hlist, htuple,
        LinkedList.toList_ofList xs, LinkedList.len_ofList xs, rfl⟩
      refused := fun hnot => absurd hall hnot
      list_log := hlistLog
      tuple_log := htupleLog }
  | some error =>
    have hnot : ¬ g.AcceptsAll v := by
      rw [← verdict_eq_none_iff, h]
      exact nofun
    obtain ⟨hlist, htuple⟩ := read_refused fits h
    exact {
      list_iff := iff_of_false (by simp [hlist]) hnot
      tuple_iff := iff_of_false (by simp [htuple]) hnot
      elements := fun hall => absurd hall hnot
      refused := fun _ => ⟨error, h, hlist, htuple⟩
      list_log := hlistLog
      tuple_log := htupleLog }

end

end Scheme

/-- For every JSON value and every kind of elements, a list is read where a tuple is and holds
the same elements; otherwise both fail with the error of the first value that is refused, in
document order. The log is that of the arrays read as lists that ended before, innermost and
leftmost first, and it is there after a failure as well. -/
theorem containers_read_in_document_order (v : Json) :
    Scheme.integers.Governs v (Decode.decode v) (Decode.decode v) ∧
    Scheme.bytes.Governs v (Decode.decode v) (Decode.decode v) ∧
    Scheme.texts.Governs v (Decode.decode v) (Decode.decode v) ∧
    Scheme.caselessTexts.Governs v (Decode.decode v) (Decode.decode v) ∧
    Scheme.nestedValues.Governs v (Decode.decode v) (Decode.decode v) :=
  ⟨Scheme.governs_of_fits Scheme.integers_fits v, Scheme.governs_of_fits Scheme.bytes_fits v,
    Scheme.governs_of_fits Scheme.texts_fits v, Scheme.governs_of_fits Scheme.caselessTexts_fits v,
    Scheme.governs_of_fits Scheme.nestedValues_fits v⟩

/-- Lists that end in front of the refused value are in the log, those behind and around it are
not. -/
example : Scheme.nestedValues.lists
    (.array [.array [.int 1, .array []], .array [.array [.int 2], .null], .array []]) =
      [.extended 0 0, .extended 2 2, .extended 1 1] := by
  decide

end SeqStore
