import SeqStore.Proofs.Chain

/-!
What the operations of a linked list do to the sequence it holds. The first part reads each
operation off the elements and the counter, whatever the counter says; only `append` trusts
it. The second part adds the invariant `Holds`: the counter is the number of elements. The
lists that operations can build are exactly those.
-/

namespace SeqStore

namespace LinkedList

variable {α : Type}

/-! ## Operations on any chain and counter -/

theorem index_eq [BEq α] (l : LinkedList α) (x : α) :
    l.index x = (l.toList.findIdx? (· == x)).map Nat.toUInt64 := by
  simp [index, toList, Chain.indexFrom_eq]

theorem contains_eq [BEq α] (l : LinkedList α) (x : α) :
    l.contains x = l.toList.any (· == x) := by
  simp [contains, index_eq, List.findIdx?_isSome]

theorem get_eq (l : LinkedList α) (idx : UInt64) :
    l.get idx = match l.toList[idx.toNat]? with
      | some x => ⟨.ok x, []⟩
      | none => ⟨.error (.outOfRange idx l.len), [.rejected idx l.len]⟩ := by
  unfold get
  rw [Chain.getFrom_eq, UInt64.sub_zero]
  rfl

theorem set_eq (l : LinkedList α) (idx : UInt64) (x : α) :
    l.set idx x = match l.toList[idx.toNat]? with
      | some old => ⟨⟨.ok old, ⟨.ofList (l.toList.set idx.toNat x), l.len⟩⟩, []⟩
      | none => ⟨⟨.error (.outOfRange idx l.len), l⟩, [.rejected idx l.len]⟩ := by
  unfold set
  rw [Chain.setFrom_eq, UInt64.sub_zero, ← toList]
  cases l.toList[idx.toNat]? <;> rfl

/-- Unlinking takes the position out, and fails without a change where there is none. -/
theorem unlink_eq (l : LinkedList α) (pos : UInt64) :
    l.unlink pos = match l.toList[pos.toNat]? with
      | some y => ⟨⟨.ok y, ⟨.ofList (l.toList.eraseIdx pos.toNat), l.len - 1⟩⟩, []⟩
      | none => ⟨⟨.error (.outOfRange pos l.len), l⟩, [.rejected pos l.len]⟩ := by
  have hget : (l.toList.drop pos.toNat)[0]? = l.toList[pos.toNat + 0]? := List.getElem?_drop
  have herase := List.eraseIdx_eq_take_drop_succ l.toList pos.toNat
  unfold unlink
  dsimp only
  rw [Chain.atLink_eq, ← toList]
  cases hdrop : l.toList.drop pos.toNat with
  | nil =>
    rw [hdrop] at hget
    have hnone : l.toList[pos.toNat]? = none := by simpa using hget.symm
    -- the walk ends early, and relinks every node it has passed
    have hall : l.toList.take pos.toNat = l.toList :=
      List.take_of_length_le (by simpa using hnone)
    simp only [hnone, hall, Chain.ofList, Chain.joinEnd_eq, Chain.toList_ofList, Chain.toList,
      List.append_nil]
    rw [toList, Chain.ofList_toList]
    rfl
  | cons y rest =>
    rw [hdrop] at hget
    have hsome : l.toList[pos.toNat]? = some y := by simpa using hget.symm
    have hrest : l.toList.drop (pos.toNat + 1) = rest := by
      rw [← List.tail_drop, hdrop, List.tail_cons]
    simp only [hsome, Chain.ofList, Chain.joinEnd_eq, Chain.toList_ofList, herase, hrest]
    rfl

theorem append_eq (l : LinkedList α) (x : α) (count : l.len.toNat = l.toList.length) :
    l.append x =
      ⟨⟨.ofList (l.toList ++ [x]), l.len + 1⟩, [.appended (l.len + 1)]⟩ := by
  -- a counter that is too small would cut the chain here
  have htake : l.toList.take l.len.toNat = l.toList := List.take_of_length_le (by omega)
  unfold append
  rw [Chain.atLink_eq, ← toList, htake, Chain.joinEnd_eq, Chain.toList_ofList]
  rfl

theorem extend_eq (l : LinkedList α) (source : Source α) :
    l.extend source =
      let len := l.len + source.delivered.length.toUInt64
      let after := ⟨.ofList (l.toList ++ source.delivered), len⟩
      match source.failure with
      | some reason => ⟨⟨.error (.source reason), after⟩, []⟩
      | none => ⟨⟨.ok (), after⟩, [.extended source.delivered.length.toUInt64 len]⟩ := by
  have hadded (n : UInt64) : l.len + n - l.len = n := by
    rw [UInt64.add_comm, UInt64.add_sub_cancel]
  unfold extend
  rw [Source.link_eq]
  simp only [Chain.joinEnd_eq, Chain.toList_ofList, hadded]
  rfl

theorem ofList_eq (xs : List α) :
    ofList xs = ⟨⟨.ofList xs, xs.length.toUInt64⟩,
      [.extended xs.length.toUInt64 xs.length.toUInt64]⟩ := by
  unfold ofList
  rw [extend_eq]
  simp only [Source.failure_ofList, Source.delivered_ofList, empty, UInt64.zero_add]
  rfl

theorem toList_ofList (xs : List α) : (ofList xs).value.toList = xs := by
  rw [ofList_eq]
  exact Chain.toList_ofList xs

theorem len_ofList (xs : List α) : (ofList xs).value.len = xs.length.toUInt64 := by
  rw [ofList_eq]

theorem toList_clone (l : LinkedList α) (copy : α → α) :
    (l.clone copy).toList = l.toList.map copy :=
  l.head.toList_clone copy

/-- Where every element is its own copy, so is the list. -/
@[simp] theorem clone_id (l : LinkedList α) : l.clone id = l := by
  have hhead : l.head.clone id = l.head := Chain.toList_inj (by simp)
  rw [clone, hhead]

/-- A needle that nothing matches leaves the list alone. -/
theorem remove_absent [BEq α] (l : LinkedList α) {x : α}
    (h : l.toList.findIdx? (· == x) = none) :
    l.remove x = ⟨⟨.error .notFound, l⟩, [.absentFromList l.len]⟩ := by
  unfold remove
  rw [index_eq, h]
  rfl

/-- Where something matches, the search and the unlinking agree on a node that is there, even
if the position had to be cut down to a word. -/
theorem remove_found [BEq α] (l : LinkedList α) {x : α} {pos : Nat}
    (h : l.toList.findIdx? (· == x) = some pos) :
    ∃ y, l.toList[pos.toUInt64.toNat]? = some y ∧
      l.remove x =
        ⟨⟨.ok y, ⟨.ofList (l.toList.eraseIdx pos.toUInt64.toNat), l.len - 1⟩⟩,
          [.removed pos.toUInt64 (l.len - 1)]⟩ := by
  obtain ⟨hpos, -⟩ := List.findIdx?_eq_some_iff_getElem.mp h
  have hword : pos.toUInt64.toNat < l.toList.length :=
    Nat.lt_of_le_of_lt (by simpa using Nat.mod_le _ _) hpos
  refine ⟨l.toList[pos.toUInt64.toNat], List.getElem?_eq_getElem hword, ?_⟩
  unfold remove
  rw [index_eq, h]
  simp only [Option.map_some]
  rw [unlink_eq, List.getElem?_eq_getElem hword]
  rfl

/-! ## The counter is the number of elements -/

/-- The list stands for the sequence `xs`: the nodes reached from the head hold its elements
in order, and the counter is its length. -/
structure Holds (l : LinkedList α) (xs : List α) : Prop where
  elements : l.toList = xs
  count : l.len.toNat = xs.length

variable {l : LinkedList α} {xs : List α}

theorem Holds.length_lt (h : l.Holds xs) : xs.length < UInt64.size := by
  rw [← h.count]
  exact l.len.toNat_lt_size

theorem Holds.len_eq (h : l.Holds xs) : l.len = xs.length.toUInt64 := by
  rw [← h.count]
  simp

/-- A sequence is held by one list only. -/
theorem Holds.unique {m : LinkedList α} (hl : l.Holds xs) (hm : m.Holds xs) : l = m := by
  have hhead : l.head = m.head := Chain.toList_inj (hl.elements.trans hm.elements.symm)
  have hlen : l.len = m.len := hl.len_eq.trans hm.len_eq.symm
  cases l
  cases m
  simp_all

theorem holds_mk {xs : List α} {len : UInt64} (short : xs.length < UInt64.size)
    (h : len = xs.length.toUInt64) : Holds ⟨.ofList xs, len⟩ xs := by
  refine ⟨Chain.toList_ofList xs, ?_⟩
  rw [h]
  exact UInt64.toNat_ofNat_of_lt short

theorem holds_empty : (empty : LinkedList α).Holds [] := ⟨rfl, rfl⟩

theorem Holds.append (h : l.Holds xs) (x : α) (short : xs.length + 1 < UInt64.size) :
    (l.append x).value.Holds (xs ++ [x]) := by
  rw [append_eq l x (by rw [h.count, h.elements]), h.elements]
  apply holds_mk (by simpa using short)
  simp [h.len_eq]

theorem Holds.extend (h : l.Holds xs) (source : Source α)
    (short : xs.length + source.delivered.length < UInt64.size) :
    (l.extend source).value.after.Holds (xs ++ source.delivered) := by
  have hmk : Holds ⟨.ofList (l.toList ++ source.delivered),
      l.len + source.delivered.length.toUInt64⟩ (xs ++ source.delivered) := by
    rw [h.elements]
    apply holds_mk (by simpa using short)
    simp [h.len_eq]
  rw [extend_eq]
  cases source.failure <;> exact hmk

theorem Holds.set (h : l.Holds xs) (idx : UInt64) (x : α) :
    (l.set idx x).value.after.Holds (xs.set idx.toNat x) := by
  rw [set_eq, h.elements]
  cases hget : xs[idx.toNat]? with
  | none =>
    have hset : xs.set idx.toNat x = xs := List.set_eq_of_length_le (by simpa using hget)
    rw [hset]
    exact h
  | some old => exact holds_mk (by simpa using h.length_lt) (by simpa using h.len_eq)

theorem Holds.remove [BEq α] (h : l.Holds xs) (x : α) :
    (l.remove x).value.after.Holds (xs.eraseP (· == x)) := by
  rw [List.eraseP_eq_eraseIdx]
  cases hfind : xs.findIdx? (· == x) with
  | none =>
    rw [remove_absent l (by rw [h.elements, hfind])]
    exact h
  | some pos =>
    obtain ⟨hpos, -⟩ := List.findIdx?_eq_some_iff_getElem.mp hfind
    obtain ⟨y, -, hremove⟩ := remove_found l (by rw [h.elements, hfind])
    have hword : pos.toUInt64.toNat = pos :=
      UInt64.toNat_ofNat_of_lt (Nat.lt_trans hpos h.length_lt)
    have hone : 1 ≤ xs.length := by omega
    have hlength := List.length_eraseIdx_of_lt hpos
    have hshort := h.length_lt
    rw [hremove, h.elements, hword]
    apply holds_mk (by omega)
    rw [hlength, h.len_eq]
    exact (UInt64.ofNat_sub hone).symm

theorem Holds.clone (h : l.Holds xs) (copy : α → α) : (l.clone copy).Holds (xs.map copy) := by
  refine ⟨?_, ?_⟩
  · rw [toList_clone, h.elements]
  · rw [List.length_map]
    exact h.count

/-- Lists are equal when the sequences they hold are. -/
theorem Holds.beq_eq [BEq α] {m : LinkedList α} {ys : List α} (hl : l.Holds xs) (hm : m.Holds ys) :
    (l == m) = (xs == ys) := by
  change (l.len == m.len && l.head.agree m.head) = _
  by_cases hlength : xs.length = ys.length
  · have hlen : l.len = m.len := by rw [hl.len_eq, hm.len_eq, hlength]
    have hagree := Chain.agree_eq l.head m.head (by
      rw [← toList, ← toList, hl.elements, hm.elements, hlength])
    rw [hlen, hagree, ← toList, ← toList, hl.elements, hm.elements]
    simp
  · have hlen : l.len ≠ m.len := by
      intro e
      exact hlength (by rw [← hl.count, ← hm.count, e])
    have hne : (xs == ys) = false := by
      rw [Bool.eq_false_iff]
      intro e
      exact hlength (List.length_eq_of_beq e)
    simp [hlen, hne]

theorem holds_ofList (xs : List α) (short : xs.length < UInt64.size) :
    (ofList xs).value.Holds xs := by
  have h := holds_empty.extend (.ofList xs) (by simpa using short)
  rw [Source.delivered_ofList] at h
  exact h

/-- The lists that a run of operations can build, if none has more elements than a word can
count. A copy is the list itself, and so is what was taken out of a variable. -/
inductive Reachable [BEq α] : LinkedList α → Prop
  | empty : Reachable empty
  | ofList (xs : List α) (short : xs.length < UInt64.size) : Reachable (ofList xs).value
  | append {l : LinkedList α} (x : α) (hl : Reachable l)
      (short : l.toList.length + 1 < UInt64.size) : Reachable (l.append x).value
  | remove {l : LinkedList α} (x : α) (hl : Reachable l) : Reachable (l.remove x).value.after
  | set {l : LinkedList α} (idx : UInt64) (x : α) (hl : Reachable l) :
      Reachable (l.set idx x).value.after
  | setOrAbort {l : LinkedList α} (idx : UInt64) (x : α) (hl : Reachable l) :
      Reachable (l.setOrAbort idx x).value.after
  | clear {l : LinkedList α} (hl : Reachable l) : Reachable l.clear.value
  | extend {l : LinkedList α} (source : Source α) (hl : Reachable l)
      (short : l.toList.length + source.delivered.length < UInt64.size) :
      Reachable (l.extend source).value.after

theorem Holds.self (h : l.Holds xs) : l.Holds l.toList := by
  rw [h.elements]
  exact h

/-- Every operation keeps the counter right. -/
theorem Reachable.holds [BEq α] (h : l.Reachable) : l.Holds l.toList := by
  induction h with
  | empty => exact holds_empty
  | ofList xs short => exact (holds_ofList xs short).self
  | append x _ short ih => exact (ih.append x short).self
  | remove x _ ih => exact (ih.remove x).self
  | set idx x _ ih => exact (ih.set idx x).self
  | setOrAbort idx x _ ih => exact (ih.set idx x).self
  | clear _ _ => exact holds_empty
  | extend source _ short ih => exact (ih.extend source short).self

theorem Holds.reachable [BEq α] (h : l.Holds xs) : l.Reachable := by
  rw [h.unique (holds_ofList xs h.length_lt)]
  exact .ofList xs h.length_lt

end LinkedList

end SeqStore
