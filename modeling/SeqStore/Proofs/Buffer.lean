import SeqStore.Buffer
import SeqStore.Proofs.Search

/-!
What the operations of a buffer do to the sequence of its elements. The storage decides only
whether there is room for one more.
-/

namespace SeqStore

namespace Buffer

variable {α : Type}

theorem len_eq (b : Buffer α) : b.len = b.toList.length.toUInt64 := by
  simp [len, toList]

theorem get_eq (b : Buffer α) (idx : UInt64) :
    b.get idx = match b.toList[idx.toNat]? with
      | some x => ⟨.ok x, []⟩
      | none => ⟨.error (.outOfRange idx b.len), [.rejected idx b.len]⟩ := by
  unfold get toList
  rw [← Array.getElem?_toList]
  rfl

theorem append_eq (b : Buffer α) (x : α) :
    b.append x = if b.isFull then ⟨⟨.error .full, b⟩, []⟩
      else ⟨⟨.ok (), ⟨b.storage, (b.toList ++ [x]).toArray⟩⟩, []⟩ := by
  obtain ⟨storage, ⟨xs⟩⟩ := b
  unfold append toList
  rw [List.push_toArray]
  rfl

theorem set_eq (b : Buffer α) (idx : UInt64) (x : α) :
    b.set idx x = match b.toList[idx.toNat]? with
      | some old => ⟨⟨.ok old, ⟨b.storage, (b.toList.set idx.toNat x).toArray⟩⟩, []⟩
      | none => ⟨⟨.error (.outOfRange idx b.len), b⟩, [.rejected idx b.len]⟩ := by
  obtain ⟨storage, ⟨xs⟩⟩ := b
  unfold set toList
  by_cases h : idx.toNat < xs.length
  · simp only [List.size_toArray, h, ↓reduceDIte, List.getElem?_eq_getElem h, List.set_toArray]
    rfl
  · simp only [List.size_toArray, h, ↓reduceDIte, List.getElem?_eq_none (Nat.le_of_not_lt h)]
    rfl

theorem remove_eq [BEq α] (b : Buffer α) (x : α) :
    b.remove x = match b.toList.find? (· == x) with
      | some y => ⟨⟨.ok y, ⟨b.storage, (b.toList.eraseP (· == x)).toArray⟩⟩, []⟩
      | none => ⟨⟨.error .notFound, b⟩, [.absentFromBuffer b.len]⟩ := by
  obtain ⟨storage, ⟨xs⟩⟩ := b
  unfold remove toList
  dsimp only
  rw [List.eraseP_eq_eraseIdx, List.find?_eq_bind_findIdx?_getElem?,
    List.findIdx?_eq_map_findFinIdx?_val]
  simp only [List.findFinIdx?_toArray]
  cases h : xs.findFinIdx? (· == x) with
  | none => rfl
  | some pos =>
    simp only [Option.map_some, Option.bind_some, Fin.is_lt, List.getElem?_eq_getElem,
      List.eraseIdx_toArray]
    rfl

theorem index_eq [BEq α] (b : Buffer α) (x : α) (short : b.toList.length < UInt64.size) :
    Container.index b x = ⟨(b.toList.findIdx? (· == x)).map Nat.toUInt64, []⟩ := by
  change search b.len b.get x = _
  rw [len_eq]
  apply search_eq b.toList b.get x short
  intro i hi
  have hword : i.toUInt64.toNat = i := UInt64.toNat_ofNat_of_lt (Nat.lt_trans hi short)
  rw [get_eq, hword, List.getElem?_eq_getElem hi]

end Buffer

end SeqStore
