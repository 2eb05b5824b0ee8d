import SeqStore.Element.Basic
import SeqStore.Proofs.Decode
import SeqStore.Proofs.LinkedList

/-!
Extending a list against appending to it. `extend` looks for the end once and links up what
its source delivers, `append` walks the whole list for every element; they leave the same list
behind wherever the source stops, and differ only in what they log.
-/

namespace SeqStore

namespace LinkedList

variable {α : Type} {l : LinkedList α} {xs : List α}

/-- Append the elements one at a time. -/
def appendAll (l : LinkedList α) : List α → Traced (LinkedList α)
  | [] => return l
  | x :: xs => do (← l.append x).appendAll xs

@[simp] theorem appendAll_nil (l : LinkedList α) : l.appendAll [] = pure l := rfl

@[simp] theorem appendAll_cons (l : LinkedList α) (x : α) (xs : List α) :
    l.appendAll (x :: xs) = l.append x >>= fun l => l.appendAll xs := rfl

/-! ## Appending one at a time -/

theorem Holds.appendAll (h : l.Holds xs) (ys : List α)
    (short : xs.length + ys.length < UInt64.size) : (l.appendAll ys).value.Holds (xs ++ ys) := by
  induction ys generalizing l xs with
  | nil => simpa using h
  | cons y ys ih =>
    rw [List.length_cons] at short
    have hstep := ih (h.append y (by omega)) (by simp; omega)
    simpa using hstep

/-- Every append reports the length it leads to. -/
theorem Holds.appendAll_log (h : l.Holds xs) (ys : List α)
    (short : xs.length + ys.length < UInt64.size) :
    (l.appendAll ys).log =
      (List.range ys.length).map fun i => .appended (xs.length + i + 1).toUInt64 := by
  induction ys generalizing l xs with
  | nil => rfl
  | cons y ys ih =>
    rw [List.length_cons] at short
    have hhead : (l.append y).log = [.appended (xs.length + 1).toUInt64] := by
      rw [append_eq l y (by rw [h.count, h.elements]), h.len_eq]
      simp
    have htail := ih (h.append y (by omega)) (by simp; omega)
    -- the rest starts from a list that is longer by one
    have hcount (i : Nat) : (xs ++ [y]).length + i + 1 = xs.length + (i + 1) + 1 := by
      rw [List.length_append, List.length_singleton]
      omega
    simp only [hcount] at htail
    rw [appendAll_cons, Traced.log_bind, hhead, htail, List.length_cons, List.range_succ_eq_map,
      List.map_cons, List.map_map]
    rfl

/-! ## Extending -/

/-- The list that extending leaves behind does not depend on how the source ended. -/
theorem extend_after (l : LinkedList α) (source : Source α) :
    (l.extend source).value.after =
      ⟨.ofList (l.toList ++ source.delivered), l.len + source.delivered.length.toUInt64⟩ := by
  rw [extend_eq]
  cases source.failure <;> rfl

theorem Holds.extend_eq_appendAll (h : l.Holds xs) (source : Source α)
    (short : xs.length + source.delivered.length < UInt64.size) :
    (l.extend source).value.after = (l.appendAll source.delivered).value :=
  (h.extend source short).unique (h.appendAll source.delivered short)

/-- A source that is exhausted is reported once, with what it added, were it nothing. -/
theorem Holds.extend_exhausted (h : l.Holds xs) {source : Source α}
    (hfailure : source.failure = none) :
    (l.extend source).value.answer = .ok () ∧
      (l.extend source).log = [.extended source.delivered.length.toUInt64
        (xs.length + source.delivered.length).toUInt64] := by
  rw [extend_eq, hfailure, h.len_eq]
  simp

/-- One that breaks off is not reported at all. -/
theorem extend_broken (l : LinkedList α) {source : Source α} {reason : String}
    (hfailure : source.failure = some reason) :
    (l.extend source).value.answer = .error (.source reason) ∧ (l.extend source).log = [] := by
  rw [extend_eq, hfailure]
  exact ⟨rfl, rfl⟩

theorem extend_extend (l : LinkedList α) (first second : Source α) :
    ((l.extend first).value.after.extend second).value.after =
      (l.extend (.ofList (first.delivered ++ second.delivered))).value.after := by
  simp only [extend_after, toList, Chain.toList_ofList, Source.delivered_ofList,
    List.length_append, List.append_assoc]
  simp [UInt64.add_assoc]

theorem ofList_eq_appendAll (xs : List α) (short : xs.length < UInt64.size) :
    (ofList xs).value = (empty.appendAll xs).value :=
  (holds_ofList xs short).unique (holds_empty.appendAll xs (by simpa using short))

variable [Decode α]

/-- For every list that operations can build: a source leaves the same list behind as its
elements appended one at a time, and the log says which of the two it was. Hence two sources
in a row are one, a list made or read in one go is the one that appends build, and a list
extended by its own elements is doubled. -/
theorem extend_agrees_with_appends [BEq α] {l : LinkedList α} (reachable : l.Reachable) :
    (∀ source : Source α, l.toList.length + source.delivered.length < UInt64.size →
      (l.extend source).value.after = (l.appendAll source.delivered).value ∧
      (l.appendAll source.delivered).log =
        (List.range source.delivered.length).map
          (fun i => .appended (l.len.toNat + i + 1).toUInt64) ∧
      (source.failure = none →
        (l.extend source).value.answer = .ok () ∧
        (l.extend source).log = [.extended source.delivered.length.toUInt64
          (l.len.toNat + source.delivered.length).toUInt64]) ∧
      (∀ reason, source.failure = some reason →
        (l.extend source).value.answer = .error (.source reason) ∧
        (l.extend source).log = [])) ∧
    (∀ first second : Source α,
      ((l.extend first).value.after.extend second).value.after =
        (l.extend (.ofList (first.delivered ++ second.delivered))).value.after) ∧
    (∀ xs : List α, xs.length < UInt64.size →
      (ofList xs).value = (empty.appendAll xs).value ∧ (ofList xs).value.toList = xs) ∧
    (∀ (v : Json) (read : LinkedList α),
      (Decode.decode v : Decoder (LinkedList α)).run.value = .ok read ↔
        ∃ items xs, v = .array items ∧ Decode.Reads items xs ∧ read = (ofList xs).value) ∧
    (∀ (text : String) (read : LinkedList α),
      (Decode.listOfText text).value = some read ↔
        ∃ items xs, Json.read? text = some (.array items) ∧ Decode.Reads items xs ∧
          read = (ofList xs).value) ∧
    (2 * l.toList.length < UInt64.size →
      (l.extend (.ofList l.toList)).value.after.toList = l.toList ++ l.toList ∧
      (l.extend (.ofList l.toList)).value.after.len.toNat = 2 * l.len.toNat) := by
  have h := reachable.holds
  refine ⟨fun source short => ⟨?_, ?_, ?_, ?_⟩, extend_extend l, fun xs short => ?_,
    fun v read => Decode.list_eq_ok_iff, fun text read => Decode.ofText_eq_some_iff,
    fun short => ?_⟩
  · exact h.extend_eq_appendAll source short
  · rw [h.count]
    exact h.appendAll_log source.delivered short
  · rw [h.count]
    exact h.extend_exhausted
  · exact fun reason => extend_broken l
  · exact ⟨ofList_eq_appendAll xs short, (holds_ofList xs short).elements⟩
  · have hdouble := h.extend (.ofList l.toList) (by simpa [Nat.two_mul] using short)
    rw [Source.delivered_ofList] at hdouble
    refine ⟨hdouble.elements, ?_⟩
    rw [hdouble.count, h.count, List.length_append, Nat.two_mul]

/-- The source breaks off after one of two elements. -/
theorem extend_agrees_with_appends_broken :
    ((ofList [7, 8]).value.extend (.breakAt "boom" 1 [9, (10 : Int64)])).value.after =
        ((ofList [7, 8]).value.appendAll [9]).value ∧
      ((ofList [7, 8]).value.extend (.breakAt "boom" 1 [9, (10 : Int64)])).log = [] := by
  have hall := extend_agrees_with_appends (.ofList [7, (8 : Int64)] (by decide))
  obtain ⟨hafter, -, -, hbroken⟩ := hall.1 (.breakAt "boom" 1 [9, 10]) (by decide)
  exact ⟨hafter, (hbroken "boom" rfl).2⟩

end LinkedList

end SeqStore
