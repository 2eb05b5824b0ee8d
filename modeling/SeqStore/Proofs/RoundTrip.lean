import SeqStore.Element.Caseless
import SeqStore.Proofs.JsonText
import SeqStore.Proofs.Nested

/-!
Containers survive their JSON text. A list and a tuple of the same elements have the same text,
and whichever of the two is read from it holds those elements again, in their order. Nested
values come back with lists in the place of tuples, for a text does not tell the two apart.
-/

namespace SeqStore

variable {α : Type}

/-! ## Elements -/

section

variable [Encode α] [Decode α]

/-- The element `x` can be written inside an array, and what is read there is `y`. -/
def Survives (x y : α) : Prop :=
  ∃ v, Encode.encode x = .ok v ∧ Json.Legible (Json.maxDepth - 1) v ∧
    (Decode.decode v : Decoder α).run.value = .ok y

/-- Elements are written and read one after the other. -/
theorem each_survives {xs ys : List α} (h : List.Forall₂ Survives xs ys) :
    ∃ vs, Encode.each xs = .ok vs ∧ (∀ v ∈ vs, Json.Legible (Json.maxDepth - 1) v) ∧
      Decode.Reads vs ys := by
  induction h with
  | nil => exact ⟨[], rfl, nofun, .nil⟩
  | @cons x y xs ys hx _ ih =>
    obtain ⟨v, hencode, hlegible, hdecode⟩ := hx
    obtain ⟨vs, heach, hall, hreads⟩ := ih
    refine ⟨v :: vs, ?_, List.forall_mem_cons.mpr ⟨hlegible, hall⟩, .cons hdecode hreads⟩
    simp only [Encode.each, hencode, heach]
    rfl

/-! ## Containers -/

/-- Every container of the elements `xs` is written as one and the same text, and from that text
both a list and a tuple of `ys` are read. -/
def RoundTrip (xs ys : List α) : Prop :=
  ∃ text : String,
    (∀ l : LinkedList α, l.toList = xs → Encode.toText l = .ok text) ∧
    (∀ t : Tuple α, t.toList = xs → Encode.toText t = .ok text) ∧
    (∃ l : LinkedList α, (Decode.listOfText text).value = some l ∧ l.toList = ys ∧
      l.len = ys.length.toUInt64) ∧
    (∃ t : Tuple α, (Decode.tupleOfText text).value = some t ∧ t.toList = ys)

theorem roundTrip_of_survives {xs ys : List α} (h : List.Forall₂ Survives xs ys) :
    RoundTrip xs ys := by
  obtain ⟨vs, heach, hlegible, hreads⟩ := each_survives h
  have hread : Json.read? (Json.array vs).render = some (.array vs) :=
    Json.read?_render (@Json.Legible.array (Json.maxDepth - 1) vs hlegible)
  refine ⟨(Json.array vs).render, ?_, ?_, ?_, ?_⟩
  · rintro l rfl
    simp only [Encode.toText, Encode.encode, heach]
    rfl
  · rintro t rfl
    simp only [Encode.toText, Encode.encode, heach]
    rfl
  · refine ⟨(LinkedList.ofList ys).value, ?_, LinkedList.toList_ofList ys, ?_⟩
    · exact Decode.ofText_eq_some_iff.mpr ⟨vs, ys, hread, hreads, rfl⟩
    · exact LinkedList.len_ofList ys
  · refine ⟨Tuple.ofList ys, ?_, ?_⟩
    · exact Decode.ofText_eq_some_iff.mpr ⟨vs, ys, hread, hreads, rfl⟩
    · rfl

end

/-! ## Kinds of elements -/

theorem Element.fitsInt64_toInt (n : Int64) : Element.FitsInt64 n.toInt :=
  ⟨n.minValue_le_toInt, n.toInt_le⟩

private theorem inWord_toInt (n : Int64) : Json.InWord n.toInt := by
  have hmin := n.le_toInt
  have hmax := n.toInt_lt
  unfold Json.InWord UInt64.size
  omega

theorem survives_int64 (n : Int64) : Survives n n := by
  refine ⟨.int n.toInt, rfl, .int (inWord_toInt n), ?_⟩
  change (Element.int64 (.int n.toInt)).run.value = .ok n
  simp only [Element.int64, Element.fitsInt64_toInt n, ↓reduceIte, Int64.ofInt_toInt]
  rfl

theorem survives_byte (n : UInt8) : Survives n n := by
  have hbyte := n.toNat_lt
  have hrange : (0 : Int) ≤ n.toNat ∧ (n.toNat : Int) ≤ 255 := by omega
  refine ⟨.int n.toNat, rfl, .int ?_, ?_⟩
  · unfold Json.InWord UInt64.size
    omega
  · change (Element.byte (.int n.toNat)).run.value = .ok n
    simp only [Element.byte, hrange, and_self, ↓reduceIte, Int.toNat_natCast, UInt8.ofNat_toNat]
    rfl

theorem survives_string (s : String) : Survives s s := ⟨.string s, rfl, .string s, rfl⟩

/-- Letters keep their case, although they are compared without it. -/
theorem survives_caseless (c : Caseless) (h : c.text ≠ "") : Survives c c := by
  have hempty : c.text.isEmpty = false := by simpa using h
  refine ⟨.string c.text, ?_, .string c.text, ?_⟩
  · simp [Encode.encode, hempty]
  · change (Caseless.decode (.string c.text)).run.value = .ok c
    simp [Caseless.decode, Element.text, h]

namespace Nested

/-- An array whose items are read as `xs` is read as the list of them. -/
private theorem decode_array_eq_ok {items : List Json} {xs : List Nested}
    (h : Decode.Reads items xs) :
    (decode (.array items)).run.value = .ok (.list (LinkedList.ofList xs).value) := by
  have hlist : (Decode.decode (.array items) : Decoder (LinkedList Nested)).run.value =
      .ok (LinkedList.ofList xs).value :=
    Decode.list_eq_ok_iff.mpr ⟨items, xs, rfl, h, rfl⟩
  rw [decode_array, ExceptT.run_map, Traced.value_map, hlist]
  rfl

private theorem reads_map {xs : List Nested}
    (h : ∀ x ∈ xs, (decode x.toJson).run.value = .ok x.listed) :
    Decode.Reads (xs.map toJson) (xs.map listed) := by
  rw [Decode.Reads, List.forall₂_map_left_iff, List.forall₂_map_right_iff, List.forall₂_same]
  exact h

theorem decode_toJson (x : Nested) : (decode x.toJson).run.value = .ok x.listed := by
  induction x using induct with
  | int n =>
    simp only [toJson_int, listed_int, decode, Element.fitsInt64_toInt n, ↓reduceIte,
      Int64.ofInt_toInt]
    rfl
  | list l ih =>
    rw [toJson_list, listed_list]
    exact decode_array_eq_ok (reads_map ih)
  | tuple t ih =>
    rw [toJson_tuple, listed_tuple]
    exact decode_array_eq_ok (reads_map ih)

/-- An array is one array more than what it holds. -/
private theorem legible_array {xs : List Nested} {limit : Nat}
    (ih : ∀ x ∈ xs, ∀ {limit : Nat}, x.depth ≤ limit → Json.Legible limit x.toJson)
    (h : depthAround (xs.map depth) ≤ limit) : Json.Legible limit (.array (xs.map toJson)) := by
  obtain ⟨limit, rfl⟩ : ∃ n, limit = n + 1 := ⟨limit - 1, by unfold depthAround at h; omega⟩
  refine .array (List.forall_mem_map.mpr fun x hx => ih x hx ?_)
  have hdepth := depth_lt_depthAround hx
  omega

theorem legible_toJson (x : Nested) {limit : Nat} (h : x.depth ≤ limit) :
    Json.Legible limit x.toJson := by
  induction x using induct generalizing limit with
  | int n =>
    rw [toJson_int]
    exact .int (inWord_toInt n)
  | list l ih =>
    rw [depth_list] at h
    rw [toJson_list]
    exact legible_array ih h
  | tuple t ih =>
    rw [depth_tuple] at h
    rw [toJson_tuple]
    exact legible_array ih h

theorem survives {x : Nested} (h : x.depth < Json.maxDepth) : Survives x x.listed :=
  ⟨x.toJson, rfl, legible_toJson x (by omega), decode_toJson x⟩

end Nested

/-- Lists and tuples of integers, of bytes, of texts and of caseless texts that are not empty
come back from their JSON text as they were, be it as a list or as a tuple, and both have the
same text. So do lists and tuples of nested values, as deep as a text is read, with a list in
the place of every tuple inside; without one they come back unchanged. -/
theorem json_text_round_trip :
    (∀ xs : List Int64, RoundTrip xs xs) ∧
    (∀ xs : List UInt8, RoundTrip xs xs) ∧
    (∀ xs : List String, RoundTrip xs xs) ∧
    (∀ xs : List Caseless, (∀ c ∈ xs, c.text ≠ "") → RoundTrip xs xs) ∧
    (∀ xs : List Nested, (∀ x ∈ xs, x.depth < Json.maxDepth) →
      RoundTrip xs (xs.map Nested.listed) ∧
      ((∀ x ∈ xs, x.Tupleless) → RoundTrip xs xs)) := by
  refine ⟨fun xs => ?_, fun xs => ?_, fun xs => ?_, fun xs hxs => ?_, fun xs hxs => ?_⟩
  · exact roundTrip_of_survives (List.forall₂_same.mpr fun n _ => survives_int64 n)
  · exact roundTrip_of_survives (List.forall₂_same.mpr fun n _ => survives_byte n)
  · exact roundTrip_of_survives (List.forall₂_same.mpr fun s _ => survives_string s)
  · exact roundTrip_of_survives (List.forall₂_same.mpr fun c hc => survives_caseless c (hxs c hc))
  · have hlisted : RoundTrip xs (xs.map Nested.listed) := by
      apply roundTrip_of_survives
      rw [List.forall₂_map_right_iff, List.forall₂_same]
      exact fun x hx => Nested.survives (hxs x hx)
    refine ⟨hlisted, fun htupleless => ?_⟩
    have hmap : xs.map Nested.listed = xs.map id :=
      List.map_congr_left fun x hx => (htupleless x hx).listed_eq
    rwa [hmap, List.map_id] at hlisted

/-- Caseless texts with letters of both cases and with characters that are escaped come back as
they were, a tuple inside a tuple comes back as a list inside a list, and a list as itself. -/
theorem json_text_round_trip_escaped_and_nested :
    RoundTrip [Caseless.mk "Ab", ⟨"\"\\\n\u0001é"⟩] [⟨"Ab"⟩, ⟨"\"\\\n\u0001é"⟩] ∧
    RoundTrip [Nested.tuple (.ofList [.int 5, .tuple (.ofList [])])]
      [.list ⟨.ofList [.int 5, .list ⟨.empty, 0⟩], 2⟩] ∧
    RoundTrip [Nested.list ⟨.ofList [.int 7], 1⟩] [.list ⟨.ofList [.int 7], 1⟩] := by
  obtain ⟨-, -, -, hcaseless, hnested⟩ := json_text_round_trip
  refine ⟨hcaseless _ ?_, (hnested _ ?_).1, (hnested _ ?_).2 ?_⟩
  · simp
  · simp only [List.mem_singleton, forall_eq]
    decide
  · simp only [List.mem_singleton, forall_eq]
    decide
  · simp only [List.mem_singleton, forall_eq]
    refine .list (LinkedList.holds_ofList [Nested.int 7] (by decide)) ?_
    intro x hx
    obtain rfl : x = .int 7 := List.mem_singleton.mp hx
    exact .int 7

end SeqStore
