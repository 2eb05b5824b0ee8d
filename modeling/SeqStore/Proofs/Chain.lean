import SeqStore.LinkedList

/-!
The walks along a chain, read off its plain view. Positions are counted in 64-bit words, and
the equations hold however long a chain is: a walk that starts at `pos` and looks for `idx`
makes `idx - pos` steps, and that difference is taken in words as well.
-/

namespace SeqStore

/-- Below the largest word, one more is counted as one more. -/
theorem toNat_succ {n : UInt64} (h : n.toNat + 1 < UInt64.size) : (n + 1).toNat = n.toNat + 1 := by
  rw [UInt64.toNat_add]
  exact Nat.mod_eq_of_lt h

namespace Chain

variable {α β : Type}

@[simp] theorem ofList_toList (c : Chain α) : ofList c.toList = c := by
  induction c with
  | empty => rfl
  | node data next ih => rw [toList, ofList, ih]

/-- A chain is nothing but its elements in their order. -/
theorem toList_inj {c d : Chain α} (h : c.toList = d.toList) : c = d := by
  rw [← ofList_toList c, h, ofList_toList]

theorem joinEnd_eq (c tail : Chain α) : c.joinEnd tail = ofList (c.toList ++ tail.toList) := by
  apply toList_inj
  rw [toList_joinEnd, toList_ofList]

@[simp] theorem toList_clone (copy : α → α) (c : Chain α) :
    (c.clone copy).toList = c.toList.map copy := by
  induction c with
  | empty => rfl
  | node data next ih => simp [clone, toList, ih]

/-- Working on the link `steps` ahead cuts the chain there. No step is lost on a shorter
chain, which is cut at its end. -/
theorem atLink_eq (f : Chain α → β × Chain α) (steps : Nat) (c : Chain α) :
    c.atLink f steps =
      ((f (ofList (c.toList.drop steps))).1,
        (ofList (c.toList.take steps)).joinEnd (f (ofList (c.toList.drop steps))).2) := by
  fun_induction atLink f steps c with
  | case1 link => simp [ofList, joinEnd]
  | case2 steps => simp [toList, ofList, joinEnd]
  | case3 steps data next answer next' h ih =>
    simp only [h, Prod.mk.injEq] at ih
    obtain ⟨hanswer, hnext⟩ := ih
    simp [toList, ofList, joinEnd, ← hanswer, ← hnext]

theorem indexFrom_eq [BEq α] (x : α) (pos : UInt64) (c : Chain α) :
    c.indexFrom x pos = (c.toList.findIdx? (· == x)).map (pos + ·.toUInt64) := by
  induction c generalizing pos with
  | empty => rfl
  | node data next ih =>
    cases h : data == x with
    | true => simp [indexFrom, toList, List.findIdx?_cons, h]
    | false =>
      simp only [indexFrom, toList, List.findIdx?_cons, h, ih]
      simp [Function.comp_def, UInt64.add_assoc, UInt64.add_comm 1]

/-- Short of `idx`, one step more leaves one step less. -/
theorem sub_succ {idx pos : UInt64} (h : pos ≠ idx) :
    (idx - pos).toNat = (idx - (pos + 1)).toNat + 1 := by
  have hne : pos.toNat ≠ idx.toNat := fun e => h (UInt64.toNat_inj.mp e)
  have hidx := idx.toNat_lt
  have hpos := pos.toNat_lt
  simp only [UInt64.toNat_sub, UInt64.toNat_add, UInt64.reduceToNat]
  omega

theorem getFrom_eq (idx pos : UInt64) (c : Chain α) :
    c.getFrom idx pos = c.toList[(idx - pos).toNat]? := by
  -- the distance to `idx` is taken modulo the word, so `pos` may pass it and come round
  induction c generalizing pos with
  | empty => rfl
  | node data next ih =>
    by_cases h : pos = idx
    · simp [getFrom, toList, h]
    · rw [sub_succ h]
      simp [getFrom, toList, h, ih]

theorem setFrom_eq (idx : UInt64) (x : α) (pos : UInt64) (c : Chain α) :
    c.setFrom idx x pos = c.toList[(idx - pos).toNat]?.map fun old =>
      (old, ofList (c.toList.set (idx - pos).toNat x)) := by
  induction c generalizing pos with
  | empty => rfl
  | node data next ih =>
    by_cases h : pos = idx
    · simp [setFrom, toList, ofList, h]
    · rw [sub_succ h]
      simp [setFrom, toList, ofList, h, ih, Function.comp_def]

/-- Chains of the same length agree exactly when the sequences of their elements do. -/
theorem agree_eq [BEq α] (a b : Chain α) (h : a.toList.length = b.toList.length) :
    a.agree b = (a.toList == b.toList) := by
  induction a generalizing b with
  | empty =>
    cases b with
    | empty => rfl
    | node y bs => simp [toList] at h
  | node x as ih =>
    cases b with
    | empty => simp [toList] at h
    | node y bs =>
      have hrest : as.toList.length = bs.toList.length := by simpa [toList] using h
      simp [agree, toList, ih bs hrest]

end Chain

namespace Source

variable {α : Type}

theorem link_eq (s : Source α) (len : UInt64) :
    s.link len = (.ofList s.delivered, len + s.delivered.length.toUInt64) := by
  induction s generalizing len with
  | exhausted => simp [link, delivered, Chain.ofList]
  | broken reason => simp [link, delivered, Chain.ofList]
  | next x rest ih =>
    simp [link, delivered, Chain.ofList, ih, UInt64.add_assoc, UInt64.add_comm 1]

end Source

end SeqStore
