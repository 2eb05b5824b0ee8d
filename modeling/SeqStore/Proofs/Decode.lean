import Mathlib.Data.List.Forall2
import SeqStore.Decode

/-!
What decoding comes to, its log aside. An array or the text of one can be read exactly if each
item can, and then gives the elements of the items in order.
-/

namespace SeqStore

namespace Json

private theorem realNumber_ne_array (negative : Bool) (whole fraction : List Char)
    (exponent : Int) (items : List Json) :
    realNumber negative whole fraction exponent ≠ some (.array items) := by
  simp [realNumber, Option.bind_eq_some_iff]

private theorem wholeNumber_ne_array (negative : Bool) (digits : List Char)
    (items : List Json) : wholeNumber negative digits ≠ some (.array items) := by
  dsimp only [wholeNumber]
  split <;> split <;> simp [realNumber_ne_array]

private theorem unsignedNumber_ne_array (negative : Bool) (cs rest : List Char)
    (items : List Json) : unsignedNumber negative cs ≠ some (.array items, rest) := by
  intro h
  simp only [unsignedNumber, bind, Option.bind_eq_some_iff] at h
  obtain ⟨⟨whole, _⟩, -, ⟨fraction, _⟩, -, ⟨exponent, _⟩, -, h⟩ := h
  split at h
  · simp only [Option.bind_eq_some_iff] at h
    obtain ⟨v, hv, ⟨⟩⟩ := h
    exact wholeNumber_ne_array _ _ _ hv
  · simp only [Option.bind_eq_some_iff] at h
    obtain ⟨v, hv, ⟨⟩⟩ := h
    exact realNumber_ne_array _ _ _ _ _ hv

/-- A value without parts is no array. -/
theorem scalar_ne_array (cs rest : List Char) (items : List Json) :
    scalar cs ≠ some (.array items, rest) := by
  unfold scalar
  split
  · simp
  · simp
  · simp
  · simp
  · unfold number
    split <;> apply unsignedNumber_ne_array

/-- Reading elements as they come finds an array exactly where reading a whole value does. -/
theorem value_eq_array_iff {depth : Nat} {cs rest : List Char} {items : List Json} :
    value (depth + 1) cs = some (.array items, rest) ↔
      elementsUntil (depth + 1) cs = (items, some rest) := by
  unfold value elementsUntil
  split
  · unfold series
    split <;> simp_all
  · -- an object, which the other reader does not look into
    simp_all
  · simp [scalar_ne_array]

theorem read?_eq_array_iff {text : String} {items : List Json} :
    read? text = some (.array items) ↔
      ∃ rest, elementsUntil maxDepth text.toList = (items, some rest) ∧
        (skipBlanks rest).isEmpty := by
  unfold read? maxDepth
  simp only [← value_eq_array_iff]
  cases hread : value 127 text.toList with
  | none => simp
  | some found =>
    obtain ⟨v, rest⟩ := found
    simp only [Option.some.injEq, Prod.mk.injEq]
    constructor
    · intro h
      cases hblank : (skipBlanks rest).isEmpty <;> rw [hblank] at h <;> cases h
      exact ⟨rest, ⟨rfl, rfl⟩, hblank⟩
    · rintro ⟨_, ⟨rfl, rfl⟩, hblank⟩
      rw [if_pos hblank]

end Json

namespace Decode

variable {α : Type} [Decode α]

/-- The items can be decoded, and these are their elements. -/
def Reads (items : List Json) (xs : List α) : Prop :=
  List.Forall₂ (fun item x => (decode item : Decoder α).run.value = .ok x) items xs

private theorem map_eq_ok_iff {ε β γ : Type} {f : β → γ} {r : Except ε β} {y : γ} :
    r.map f = .ok y ↔ ∃ x, r = .ok x ∧ y = f x := by
  cases r <;> simp [Except.map, eq_comm]

/-- One item after the other, up to the first that cannot be decoded. -/
theorem each_cons_value (item : Json) (items : List Json) :
    (each decode (item :: items) : Decoder (List α)).run.value =
      match (decode item : Decoder α).run.value with
      | .error error => .error error
      | .ok x => (each decode items).run.value.map (x :: ·) := by
  simp only [each, ExceptT.run_bind, Traced.value_bind]
  cases (decode item : Decoder α).run.value with
  | error error => rfl
  | ok x =>
    simp only [Traced.value_bind]
    cases (each decode items : Decoder (List α)).run.value <;> rfl

/-- What was noted before an item that cannot be decoded stays in the log. -/
theorem each_cons_log (item : Json) (items : List Json) :
    (each decode (item :: items) : Decoder (List α)).run.log =
      (decode item : Decoder α).run.log ++
        match (decode item : Decoder α).run.value with
        | .error _ => []
        | .ok _ => (each decode items : Decoder (List α)).run.log := by
  simp only [each, ExceptT.run_bind, Traced.log_bind]
  cases (decode item : Decoder α).run.value with
  | error error => rfl
  | ok x =>
    simp only [Traced.log_bind]
    cases (each decode items : Decoder (List α)).run.value <;> simp

theorem each_eq_ok_iff {items : List Json} {xs : List α} :
    (each decode items : Decoder (List α)).run.value = .ok xs ↔ Reads items xs := by
  induction items generalizing xs with
  | nil =>
    constructor
    · rintro ⟨⟩
      exact .nil
    · rintro ⟨⟩
      rfl
  | cons item items ih =>
    rw [each_cons_value, Reads, List.forall₂_cons_left_iff]
    cases hitem : (decode item : Decoder α).run.value with
    | error error => simp
    | ok x =>
      simp only [map_eq_ok_iff, ih, Except.ok.injEq]
      constructor
      · rintro ⟨rest, hrest, rfl⟩
        exact ⟨x, rest, rfl, hrest, rfl⟩
      · rintro ⟨_, rest, rfl, hrest, rfl⟩
        exact ⟨rest, hrest, rfl⟩

theorem sequence_eq_ok_iff {v : Json} {xs : List α} :
    (sequence v : Decoder (List α)).run.value = .ok xs ↔
      ∃ items, v = .array items ∧ Reads items xs := by
  cases v with
  | array items =>
    rw [sequence, each_eq_ok_iff]
    simp
  | null | bool | int | float | string | object =>
    constructor
    · exact nofun
    · rintro ⟨items, ⟨⟩, -⟩

/-- Reading a list decodes its elements and then builds it. -/
theorem list_value (v : Json) :
    (Decode.decode v : Decoder (LinkedList α)).run.value =
      (Decode.sequence v).run.value.map fun xs => (LinkedList.ofList xs).value := by
  simp only [Decode.decode, ExceptT.run_bind, Traced.value_bind]
  cases (Decode.sequence v : Decoder (List α)).run.value <;> rfl

theorem list_log (v : Json) :
    (Decode.decode v : Decoder (LinkedList α)).run.log =
      (Decode.sequence v : Decoder (List α)).run.log ++
        match (Decode.sequence v : Decoder (List α)).run.value with
        | .error _ => []
        | .ok xs => (LinkedList.ofList xs).log := by
  simp only [Decode.decode, ExceptT.run_bind, Traced.log_bind]
  cases (Decode.sequence v : Decoder (List α)).run.value with
  | error error => rfl
  | ok xs => simp

theorem tuple_value (v : Json) :
    (Decode.decode v : Decoder (Tuple α)).run.value =
      (Decode.sequence v).run.value.map Tuple.ofList := by
  simp only [Decode.decode, ExceptT.run_bind, Traced.value_bind]
  cases (Decode.sequence v : Decoder (List α)).run.value <;> rfl

theorem tuple_log (v : Json) :
    (Decode.decode v : Decoder (Tuple α)).run.log =
      (Decode.sequence v : Decoder (List α)).run.log := by
  simp only [Decode.decode, ExceptT.run_bind, Traced.log_bind]
  cases (Decode.sequence v : Decoder (List α)).run.value <;> simp

/-- A list is read from an array whose items can be, and from nothing else. -/
theorem list_eq_ok_iff {v : Json} {l : LinkedList α} :
    (decode v : Decoder (LinkedList α)).run.value = .ok l ↔
      ∃ items xs, v = .array items ∧ Reads items xs ∧ l = (LinkedList.ofList xs).value := by
  rw [list_value, map_eq_ok_iff]
  simp only [sequence_eq_ok_iff]
  constructor
  · rintro ⟨xs, ⟨items, hv, hreads⟩, hl⟩
    exact ⟨items, xs, hv, hreads, hl⟩
  · rintro ⟨items, xs, hv, hreads, hl⟩
    exact ⟨xs, ⟨items, hv, hreads⟩, hl⟩

/-- What is built from a text follows from the elements in it. -/
theorem ofText_value {γ : Type} (make : List α → Traced γ) (text : String) :
    (Decode.ofText make text).value =
      (Decode.ofText (pure : List α → Traced (List α)) text).value.map fun xs =>
        (make xs).value := by
  unfold Decode.ofText
  rcases Json.elementsUntil Json.maxDepth text.toList with ⟨items, rest⟩
  simp only [Traced.value_bind]
  cases (Decode.each Decode.decode items : Decoder (List α)).run.value with
  | error e => rfl
  | ok xs =>
    cases rest with
    | none => rfl
    | some rest => cases h : (Json.skipBlanks rest).isEmpty <;> simp [h]

/-- A container is read from a text that is one array whose items can be, and from nothing
else. -/
theorem ofText_eq_some_iff {γ : Type} {make : List α → Traced γ} {text : String} {c : γ} :
    (ofText make text).value = some c ↔
      ∃ items xs, Json.read? text = some (.array items) ∧ Reads items xs ∧
        c = (make xs).value := by
  simp only [Json.read?_eq_array_iff, ← each_eq_ok_iff]
  unfold ofText
  rcases Json.elementsUntil Json.maxDepth text.toList with ⟨items, rest⟩
  simp only [Traced.value_bind, Prod.mk.injEq]
  constructor
  · intro h
    cases heach : (each decode items : Decoder (List α)).run.value with
    | error error =>
      rw [heach] at h
      cases h
    | ok xs =>
      rw [heach] at h
      cases rest with
      | none => cases h
      | some rest =>
        cases hblank : (Json.skipBlanks rest).isEmpty <;> simp [hblank] at h
        exact ⟨items, xs, ⟨rest, ⟨rfl, rfl⟩, hblank⟩, heach, h.symm⟩
  · rintro ⟨_, xs, ⟨rest, ⟨rfl, rfl⟩, hblank⟩, heach, rfl⟩
    simp [heach, hblank]

end Decode

end SeqStore
