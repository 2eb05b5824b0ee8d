import SeqStore.Proofs.Access
import SeqStore.Proofs.Request

/-!
All ways to search lead to the same place. A list walks its nodes, a tuple looks through its
elements, a buffer asks itself for one position after the other, and removal has a search of its
own; each finds the first element that matches, the stored element standing on the left, so the
equality may be any relation. The default search would find the same in every one of them, and since
it never asks for a position that is not there, it leaves no trace in the log.
-/

namespace SeqStore

variable {α γ : Type}

/-! ## Positions as words -/

/-- A position found in a sequence whose length a word counts is not changed by the word. -/
theorem findIdx?_word_eq_some_iff {p : α → Bool} {xs : List α} (short : xs.length < UInt64.size)
    (i : UInt64) :
    (xs.findIdx? p).map Nat.toUInt64 = some i ↔ xs.findIdx? p = some i.toNat := by
  cases hfind : xs.findIdx? p with
  | none => simp
  | some pos =>
    obtain ⟨hpos, -⟩ := List.findIdx?_eq_some_iff_getElem.mp hfind
    have hword : pos.toUInt64.toNat = pos := UInt64.toNat_ofNat_of_lt (Nat.lt_trans hpos short)
    simp only [Option.map_some, Option.some.injEq]
    constructor
    · rintro rfl
      exact hword.symm
    · rintro rfl
      simp

/-! ## Searching -/

/-- What searching the container for `x` comes to. -/
structure Locates [BEq α] [Container γ α] (view : γ → List α) (c : γ) (x : α) : Prop where
  /-- It is what the default search makes of the length and of access. -/
  default : Container.index c x = search (Container.len c) (Container.get c) x
  quiet : (Container.index c x).log = []
  found : ∀ i, (Container.index c x).value = some i ↔
    i < Container.len c ∧
      (∃ y, Container.get c i = ⟨.ok y, []⟩ ∧ (y == x) = true) ∧
      ∀ k, k < i → ∃ y, Container.get c k = ⟨.ok y, []⟩ ∧ (y == x) = false
  absent : (Container.index c x).value = none ↔ ∀ y ∈ view c, (y == x) = false
  contains : Container.contains c x = ⟨(Container.index c x).value.isSome, []⟩

namespace Addresses

variable [BEq α] [Container γ α] {view : γ → List α} {c : γ}

/-- The default search finds the first match in every container that answers for the positions below
its length. -/
theorem search_eq (h : Addresses view c) (x : α) :
    search (Container.len c) (Container.get c) x =
      ⟨((view c).findIdx? (· == x)).map Nat.toUInt64, []⟩ := by
  have hlen : Container.len c = (view c).length.toUInt64 := by
    rw [← h.count]
    simp
  rw [hlen]
  apply SeqStore.search_eq (view c) (Container.get c) x h.short
  intro i hi
  have hword : i.toUInt64.toNat = i := UInt64.toNat_ofNat_of_lt (Nat.lt_trans hi h.short)
  rw [h.get_eq (by omega)]
  simp only [hword]

/-- The first match in terms of length and access. -/
theorem findIdx?_eq_some_iff (h : Addresses view c) (x : α) (i : UInt64) :
    (view c).findIdx? (· == x) = some i.toNat ↔
      i < Container.len c ∧
        (∃ y, Container.get c i = ⟨.ok y, []⟩ ∧ (y == x) = true) ∧
        ∀ k, k < i → ∃ y, Container.get c k = ⟨.ok y, []⟩ ∧ (y == x) = false := by
  rw [List.findIdx?_eq_some_iff_getElem, h.lt_len_iff]
  constructor
  · rintro ⟨hi, hmatch, hbefore⟩
    refine ⟨hi, ⟨_, h.get_eq hi, hmatch⟩, fun k hk => ?_⟩
    have hki : k.toNat < i.toNat := UInt64.lt_iff_toNat_lt.mp hk
    exact ⟨_, h.get_eq (Nat.lt_trans hki hi), by simpa using hbefore k.toNat hki⟩
  · rintro ⟨hi, ⟨y, hy, hmatch⟩, hbefore⟩
    refine ⟨hi, ?_, fun j hj => ?_⟩
    · rw [h.get_eq hi] at hy
      cases hy
      exact hmatch
    · -- a position below a word is a word itself
      have hword : j.toUInt64.toNat = j :=
        UInt64.toNat_ofNat_of_lt (Nat.lt_trans hj i.toNat_lt_size)
      have hlt : j.toUInt64 < i := by
        rw [UInt64.lt_iff_toNat_lt, hword]
        exact hj
      obtain ⟨z, hz, hother⟩ := hbefore j.toUInt64 hlt
      rw [h.get_eq (by omega)] at hz
      cases hz
      simpa [hword] using hother

theorem locates (h : Addresses view c) {x : α}
    (index : Container.index c x = ⟨((view c).findIdx? (· == x)).map Nat.toUInt64, []⟩)
    (contains : Container.contains c x = ⟨(Container.index c x).value.isSome, []⟩) :
    Locates view c x := by
  refine ⟨index.trans (h.search_eq x).symm, by rw [index], fun i => ?_, ?_, contains⟩
  · rw [index, findIdx?_word_eq_some_iff h.short]
    exact h.findIdx?_eq_some_iff x i
  · rw [index, Option.map_eq_none_iff, List.findIdx?_eq_none_iff]

end Addresses

/-! ## Removing -/

/-- What removing `x` from the container comes to, next to searching it. -/
structure Takes [BEq α] [MutableContainer γ α] (view : γ → List α) (c : γ) (x : α) : Prop where
  succeeds : (∃ y, (MutableContainer.remove c x).value.answer = .ok y) ↔
    (Container.contains c x).value = true
  /-- The element at the position that is found is handed out, and that position alone goes. -/
  taken : ∀ i, (Container.index c x).value = some i →
    ∃ y, Container.get c i = ⟨.ok y, []⟩ ∧
      (MutableContainer.remove c x).value.answer = .ok y ∧
      view (MutableContainer.remove c x).value.after = (view c).eraseIdx i.toNat
  left : (Container.index c x).value = none →
    (MutableContainer.remove c x).value.answer = .error .notFound ∧
      (MutableContainer.remove c x).value.after = c

theorem Locates.takes [BEq α] [MutableContainer γ α] {view : γ → List α} {c : γ} {x : α}
    (h : Addresses view c) (locates : Locates view c x)
    (answer : (MutableContainer.remove c x).value.answer = Request.firstMatch (view c) x)
    (elements : view (MutableContainer.remove c x).value.after = (view c).eraseP (· == x))
    (unchanged : (view c).findIdx? (· == x) = none →
      (MutableContainer.remove c x).value.after = c) : Takes view c x := by
  have hindex := locates.default.trans (h.search_eq x)
  rw [Request.firstMatch, List.find?_eq_bind_findIdx?_getElem?] at answer
  rw [List.eraseP_eq_eraseIdx] at elements
  refine ⟨?_, fun i hi => ?_, fun hnone => ?_⟩
  · rw [locates.contains, hindex, answer]
    cases hfind : (view c).findIdx? (· == x) with
    | none => simp
    | some pos =>
      obtain ⟨hpos, -⟩ := List.findIdx?_eq_some_iff_getElem.mp hfind
      simp [List.getElem?_eq_getElem hpos]
  · obtain ⟨hlt, -, -⟩ := (locates.found i).mp hi
    obtain ⟨y, hy, hget⟩ := h.within i hlt
    rw [hindex, findIdx?_word_eq_some_iff h.short] at hi
    rw [hi] at answer elements
    rw [Option.bind_some, hy] at answer
    exact ⟨y, hget, answer, elements⟩
  · rw [hindex, Option.map_eq_none_iff] at hnone
    rw [hnone] at answer
    exact ⟨answer, unchanged hnone⟩

/-! ## Lists, tuples and buffers -/

namespace LinkedList

variable [BEq α] {l : LinkedList α} {xs : List α}

theorem Holds.locates (h : l.Holds xs) (x : α) : Locates toList l x := by
  apply h.addresses.locates
  · rw [← l.index_eq x]
    rfl
  · rfl

theorem Holds.takes (h : l.Holds xs) (x : α) : Takes toList l x := by
  obtain rfl := h.elements
  apply (h.locates x).takes h.addresses
  · exact Request.list_remove h x
  · exact (h.remove x).elements
  · intro hnone
    exact congrArg (fun step => step.value.after) (l.remove_absent hnone)

end LinkedList

namespace Tuple

theorem index_eq [BEq α] (t : Tuple α) (x : α) :
    t.index x = (t.toList.findIdx? (· == x)).map Nat.toUInt64 := by
  obtain ⟨⟨xs⟩⟩ := t
  simp [index, toList]

theorem contains_eq [BEq α] (t : Tuple α) (x : α) : t.contains x = (t.index x).isSome := by
  rw [index_eq, Option.isSome_map, List.findIdx?_isSome]
  simp [contains, toList]

theorem Short.locates [BEq α] {t : Tuple α} (short : t.Short) (x : α) : Locates toList t x := by
  apply short.addresses.locates
  · rw [← t.index_eq x]
    rfl
  · rfl

end Tuple

namespace Buffer

variable [BEq α] (b : Buffer α)

theorem locates (short : b.toList.length < UInt64.size) (x : α) : Locates toList b x := by
  have hindex := b.index_eq x short
  apply (addresses short).locates hindex
  rw [Request.buffer_contains b x short, hindex, Option.isSome_map, List.findIdx?_isSome]

theorem takes (short : b.toList.length < UInt64.size) (x : α) : Takes toList b x := by
  obtain ⟨hanswer, hafter, -⟩ := Request.buffer_remove b x
  apply (b.locates short x).takes (addresses short) hanswer hafter
  intro hnone
  have hfind : b.toList.find? (· == x) = none := by
    rw [List.find?_eq_bind_findIdx?_getElem?, hnone]
    rfl
  change (b.remove x).value.after = b
  rw [b.remove_eq, hfind]

end Buffer

/-- Every way to search a container agrees with the default search, for every list that operations
can build, every tuple and every buffer whose length a word counts, and for any equality: it finds
the first element that matches, says that there is one exactly then, and logs nothing; removal
succeeds exactly when there is one and takes that one out. -/
theorem search_paths_agree [BEq α] (x : α) :
    (∀ l : LinkedList α, l.Reachable →
        Locates LinkedList.toList l x ∧ Takes LinkedList.toList l x ∧
          Container.index l x = ⟨l.index x, []⟩ ∧ l.contains x = (l.index x).isSome) ∧
      (∀ t : Tuple α, t.Short →
        Locates Tuple.toList t x ∧
          Container.index t x = ⟨t.index x, []⟩ ∧ t.contains x = (t.index x).isSome) ∧
      ∀ b : Buffer α, b.toList.length < UInt64.size →
        Locates Buffer.toList b x ∧ Takes Buffer.toList b x := by
  refine ⟨fun l reachable => ?_, fun t short => ?_, fun b short => ?_⟩
  · exact ⟨reachable.holds.locates x, reachable.holds.takes x, rfl, rfl⟩
  · exact ⟨short.locates x, rfl, t.contains_eq x⟩
  · exact ⟨b.locates short x, b.takes short x⟩

/-- A stored rank matches every needle that is higher: neither reflexive nor symmetric. -/
structure Rank where
  value : UInt8

instance : BEq Rank := ⟨fun stored needle => decide (stored.value < needle.value)⟩

/-- The first rank below five, searched for and taken out. -/
theorem search_paths_agree_rank :
    search 3 (LinkedList.ofList [(⟨7⟩ : Rank), ⟨3⟩, ⟨1⟩]).value.get ⟨5⟩ = ⟨some 1, []⟩ ∧
      search 3 (Tuple.ofList [(⟨7⟩ : Rank), ⟨3⟩, ⟨1⟩]).get ⟨5⟩ = ⟨some 1, []⟩ ∧
      ∃ y, (⟨.growable, #[⟨7⟩, ⟨3⟩, ⟨1⟩]⟩ : Buffer Rank).get 1 = ⟨.ok y, []⟩ ∧
        ((⟨.growable, #[⟨7⟩, ⟨3⟩, ⟨1⟩]⟩ : Buffer Rank).remove ⟨5⟩).value.answer = .ok y ∧
        ((⟨.growable, #[⟨7⟩, ⟨3⟩, ⟨1⟩]⟩ : Buffer Rank).remove ⟨5⟩).value.after.toList =
          [⟨7⟩, ⟨1⟩] := by
  have hfirst : [(⟨7⟩ : Rank), ⟨3⟩, ⟨1⟩].findIdx? (· == ⟨5⟩) = some 1 := by decide
  obtain ⟨hlist, htuple, hbuffer⟩ := search_paths_agree (⟨5⟩ : Rank)
  refine ⟨?_, ?_, ?_⟩
  · obtain ⟨hlocates, -, hindex, -⟩ := hlist _ (.ofList [⟨7⟩, ⟨3⟩, ⟨1⟩] (by decide))
    rw [LinkedList.index_eq, LinkedList.toList_ofList, hfirst] at hindex
    exact hlocates.default.symm.trans hindex
  · obtain ⟨hlocates, hindex, -⟩ := htuple (.ofList [⟨7⟩, ⟨3⟩, ⟨1⟩]) (by decide)
    rw [Tuple.index_eq] at hindex
    exact hlocates.default.symm.trans hindex
  · exact (hbuffer ⟨.growable, #[⟨7⟩, ⟨3⟩, ⟨1⟩]⟩ (by decide)).2.taken 1 (by decide)

end SeqStore
