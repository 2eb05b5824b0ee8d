import SeqStore.Proofs.Buffer
import SeqStore.Proofs.Feed
import SeqStore.Proofs.LinkedList

/-!
Access by position. Every container answers for the positions below its length and turns down the
others, with the position and the true number of its elements; where a position has to exist, what
would be an error ends the operation with the same words. Writing addresses the element that reading
gives, and changes that element and nothing else.

A list finds a position by walking its nodes, so that its bound is the end of the chain, and a
buffer looks into its storage. Both come to the same: `fetch` on the sequence of elements.
-/

namespace SeqStore

variable {α γ : Type}

/-! ## Sequences -/

/-- The element of a sequence at `idx`. A position that it does not have is turned down, with a
note. -/
def fetch (xs : List α) (idx : UInt64) : Traced (Except AccessError α) :=
  match xs[idx.toNat]? with
  | some x => ⟨.ok x, []⟩
  | none => ⟨.error (.outOfRange idx xs.length.toUInt64), [.rejected idx xs.length.toUInt64]⟩

theorem fetch_some {xs : List α} {idx : UInt64} {x : α} (h : xs[idx.toNat]? = some x) :
    fetch xs idx = ⟨.ok x, []⟩ := by
  simp only [fetch, h]

theorem fetch_none {xs : List α} {idx : UInt64} (h : xs[idx.toNat]? = none) :
    fetch xs idx =
      ⟨.error (.outOfRange idx xs.length.toUInt64), [.rejected idx xs.length.toUInt64]⟩ := by
  simp only [fetch, h]

theorem fetch_eq_ok {xs : List α} {idx : UInt64} {x : α} (h : (fetch xs idx).value = .ok x) :
    xs[idx.toNat]? = some x := by
  cases hget : xs[idx.toNat]? with
  | none =>
    rw [fetch_none hget] at h
    cases h
  | some y =>
    rw [fetch_some hget] at h
    cases h
    rfl

theorem fetch_set_ne (xs : List α) {idx k : UInt64} (h : k ≠ idx) (x : α) :
    fetch (xs.set idx.toNat x) k = fetch xs k := by
  have hne : idx.toNat ≠ k.toNat := fun e => h (UInt64.toNat_inj.mp e.symm)
  simp only [fetch, List.getElem?_set_ne hne, List.length_set]

/-- A write that hands out the old element where there is one, and else fails without a change, is
one equation: where there is no element, there is nothing to replace either. -/
theorem write_eq_fetch {make : List α → γ} {xs : List α} {idx : UInt64} {x : α}
    {write : Traced (Change AccessError α γ)}
    (found : ∀ old, xs[idx.toNat]? = some old →
      write = ⟨⟨.ok old, make (xs.set idx.toNat x)⟩, []⟩)
    (missing : xs[idx.toNat]? = none →
      write = ⟨⟨.error (.outOfRange idx xs.length.toUInt64), make xs⟩,
        [.rejected idx xs.length.toUInt64]⟩) :
    write = ⟨⟨(fetch xs idx).value, make (xs.set idx.toNat x)⟩, (fetch xs idx).log⟩ := by
  cases hget : xs[idx.toNat]? with
  | none =>
    have hset : xs.set idx.toNat x = xs := List.set_eq_of_length_le (by simpa using hget)
    rw [missing hget, fetch_none hget, hset]
  | some old => rw [found old hget, fetch_some hget]

/-! ## Reading -/

/-- The container answers for the positions below its length, which is the number of its elements,
and turns the others down. -/
structure Addresses [Container γ α] (view : γ → List α) (c : γ) : Prop where
  count : (Container.len c).toNat = (view c).length
  within : ∀ idx, idx < Container.len c →
    ∃ x, (view c)[idx.toNat]? = some x ∧ Container.get c idx = ⟨.ok x, []⟩
  beyond : ∀ idx, Container.len c ≤ idx → Container.get c idx =
    ⟨.error (.outOfRange idx (Container.len c)), [.rejected idx (Container.len c)]⟩

namespace Addresses

variable [Container γ α] {view : γ → List α} {c : γ}

theorem short (h : Addresses view c) : (view c).length < UInt64.size := by
  rw [← h.count]
  exact (Container.len c).toNat_lt_size

theorem lt_len_iff (h : Addresses view c) (k : UInt64) :
    k < Container.len c ↔ k.toNat < (view c).length := by
  rw [UInt64.lt_iff_toNat_lt, h.count]

theorem get_eq (h : Addresses view c) {k : UInt64} (hk : k.toNat < (view c).length) :
    Container.get c k = ⟨.ok (view c)[k.toNat], []⟩ := by
  obtain ⟨x, hx, hget⟩ := h.within k ((h.lt_len_iff k).mpr hk)
  rw [List.getElem?_eq_getElem hk, Option.some.injEq] at hx
  rw [hget, hx]

end Addresses

theorem addresses_of_fetch [Container γ α] {view : γ → List α} {c : γ}
    (short : (view c).length < UInt64.size)
    (len : Container.len c = (view c).length.toUInt64)
    (get : ∀ idx, Container.get c idx = fetch (view c) idx) : Addresses view c := by
  have hcount : (Container.len c).toNat = (view c).length := by
    rw [len]
    exact UInt64.toNat_ofNat_of_lt short
  refine ⟨hcount, fun idx hlt => ?_, fun idx hle => ?_⟩
  · have hidx : idx.toNat < (view c).length := by
      rw [← hcount]
      exact UInt64.lt_iff_toNat_lt.mp hlt
    have hget := List.getElem?_eq_getElem hidx
    exact ⟨_, hget, (get idx).trans (fetch_some hget)⟩
  · have hidx : (view c).length ≤ idx.toNat := by
      rw [← hcount]
      exact UInt64.le_iff_toNat_le.mp hle
    rw [get, fetch_none (List.getElem?_eq_none hidx), len]

/-- A demand for what was asked: the same element, or an abort in the words of the error. Either way
the same is noted. -/
structure Insists (asked : Traced (Except AccessError α)) (demanded : Traced (Except Abort α)) :
    Prop where
  found : ∀ x, asked.value = .ok x → demanded.value = .ok x
  failed : ∀ error, asked.value = .error error →
    ∃ cause, demanded.value = .error cause ∧ cause.message = error.message
  log : demanded.log = asked.log

theorem insists_of_mapError {asked : Traced (Except AccessError α)}
    {demanded : Traced (Except Abort α)}
    (value : demanded.value = asked.value.mapError .position) (log : demanded.log = asked.log) :
    Insists asked demanded := by
  refine ⟨fun x hx => ?_, fun error herror => ⟨.position error, ?_, rfl⟩, log⟩
  · rw [value, hx]
    rfl
  · rw [value, herror]
    rfl

/-! ## Writing -/

/-- The container after `x` was written at `idx`. -/
def rewritten [MutableContainer γ α] (c : γ) (idx : UInt64) (x : α) : γ :=
  (MutableContainer.set c idx x).value.after

/-- Writing addresses what reading gives, and changes it alone. -/
structure Rewrites [MutableContainer γ α] (view : γ → List α) (c : γ) : Prop where
  /-- The old element is the one that reading gives; where reading fails, writing fails alike. -/
  answer : ∀ idx x, (MutableContainer.set c idx x).value.answer = (Container.get c idx).value
  log : ∀ idx x, (MutableContainer.set c idx x).log = (Container.get c idx).log
  here : ∀ idx x, idx < Container.len c → Container.get (rewritten c idx x) idx = ⟨.ok x, []⟩
  elsewhere : ∀ idx x k, k ≠ idx → Container.get (rewritten c idx x) k = Container.get c k
  len : ∀ idx x, Container.len (rewritten c idx x) = Container.len c
  elements : ∀ idx x, view (rewritten c idx x) = (view c).set idx.toNat x
  /-- To write back what was read changes nothing. -/
  back : ∀ idx x, (Container.get c idx).value = .ok x → rewritten c idx x = c
  /-- Of two writes at one position the second remains. -/
  again : ∀ idx x y, rewritten (rewritten c idx x) idx y = rewritten c idx y
  /-- At two positions either write may come first. -/
  commute : ∀ i j x y, i ≠ j →
    rewritten (rewritten c i x) j y = rewritten (rewritten c j y) i x

/-- A kind of container that is made of its elements and reads and writes as their sequence does. -/
structure MadeOf [MutableContainer γ α] (view : γ → List α) (make : List α → γ) : Prop where
  elements : ∀ xs, view (make xs) = xs
  len : ∀ xs, Container.len (make xs) = xs.length.toUInt64
  get : ∀ xs idx, Container.get (make xs) idx = fetch xs idx
  set : ∀ xs idx x, MutableContainer.set (make xs) idx x =
    ⟨⟨(fetch xs idx).value, make (xs.set idx.toNat x)⟩, (fetch xs idx).log⟩

namespace MadeOf

variable [MutableContainer γ α] {view : γ → List α} {make : List α → γ}

theorem addresses (h : MadeOf view make) {xs : List α} (short : xs.length < UInt64.size) :
    Addresses view (make xs) := by
  have hview := h.elements xs
  apply addresses_of_fetch
  · rw [hview]
    exact short
  · rw [hview, h.len]
  · intro idx
    rw [hview, h.get]

theorem rewritten_eq (h : MadeOf view make) (xs : List α) (idx : UInt64) (x : α) :
    rewritten (make xs) idx x = make (xs.set idx.toNat x) := by
  rw [rewritten, h.set]

theorem rewrites (h : MadeOf view make) {xs : List α} (short : xs.length < UInt64.size) :
    Rewrites view (make xs) where
  answer idx x := by rw [h.set, h.get]
  log idx x := by rw [h.set, h.get]
  here idx x hlt := by
    have hlen : xs.length.toUInt64.toNat = xs.length := UInt64.toNat_ofNat_of_lt short
    rw [h.len, UInt64.lt_iff_toNat_lt, hlen] at hlt
    rw [h.rewritten_eq, h.get]
    exact fetch_some (List.getElem?_set_self hlt)
  elsewhere idx x k hk := by rw [h.rewritten_eq, h.get, h.get, fetch_set_ne xs hk]
  len idx x := by rw [h.rewritten_eq, h.len, h.len, List.length_set]
  elements idx x := by rw [h.rewritten_eq, h.elements, h.elements]
  back idx x hx := by
    rw [h.get] at hx
    obtain ⟨hidx, hget⟩ := List.getElem?_eq_some_iff.mp (fetch_eq_ok hx)
    rw [h.rewritten_eq, ← hget, List.set_getElem_self]
  again idx x y := by rw [h.rewritten_eq, h.rewritten_eq, h.rewritten_eq, List.set_set]
  commute i j x y hij := by
    have hne : i.toNat ≠ j.toNat := fun e => hij (UInt64.toNat_inj.mp e)
    rw [h.rewritten_eq, h.rewritten_eq, h.rewritten_eq, h.rewritten_eq, List.set_comm x y hne]

end MadeOf

/-! ## Lists, tuples and buffers -/

namespace LinkedList

/-- The list that holds a sequence. -/
def made (xs : List α) : LinkedList α := ⟨.ofList xs, xs.length.toUInt64⟩

theorem Holds.eq_made {l : LinkedList α} {xs : List α} (h : l.Holds xs) : l = made xs :=
  h.unique (holds_mk h.length_lt rfl)

@[simp] theorem toList_made (xs : List α) : (made xs).toList = xs := Chain.toList_ofList xs

theorem madeOf_made : MadeOf toList (made : List α → LinkedList α) where
  elements := toList_made
  len _ := rfl
  get xs idx := by
    change (made xs).get idx = _
    rw [get_eq, toList_made]
    rfl
  set xs idx x := by
    change (made xs).set idx x = _
    apply write_eq_fetch
    · intro old hget
      rw [set_eq, toList_made, hget]
      simp [made]
    · intro hget
      rw [set_eq, toList_made, hget]
      rfl

variable {l : LinkedList α} {xs : List α}

theorem Holds.get_eq (h : l.Holds xs) (idx : UInt64) : l.get idx = fetch xs idx := by
  rw [h.eq_made]
  exact madeOf_made.get xs idx

theorem Holds.addresses (h : l.Holds xs) : Addresses toList l := by
  rw [h.eq_made]
  exact madeOf_made.addresses h.length_lt

theorem Holds.rewrites (h : l.Holds xs) : Rewrites toList l := by
  rw [h.eq_made]
  exact madeOf_made.rewrites h.length_lt

end LinkedList

namespace Tuple

theorem len_eq (t : Tuple α) : Container.len t = t.toList.length.toUInt64 := rfl

theorem get_eq (t : Tuple α) (idx : UInt64) : t.get idx = fetch t.toList idx := by
  obtain ⟨⟨xs⟩⟩ := t
  unfold get fetch toList count
  rw [← Array.getElem?_toList]
  cases xs[idx.toNat]? <;> rfl

theorem Short.addresses {t : Tuple α} (short : t.Short) : Addresses toList t :=
  addresses_of_fetch short t.len_eq t.get_eq

end Tuple

namespace Buffer

/-- The buffer of this storage that has these elements. -/
def made (storage : Storage) (xs : List α) : Buffer α := ⟨storage, xs.toArray⟩

@[simp] theorem toList_made (storage : Storage) (xs : List α) : (made storage xs).toList = xs := rfl

theorem madeOf_made (storage : Storage) :
    MadeOf toList (made storage : List α → Buffer α) where
  elements := toList_made storage
  len _ := rfl
  get xs idx := by
    change (made storage xs).get idx = _
    rw [get_eq, toList_made]
    rfl
  set xs idx x := by
    change (made storage xs).set idx x = _
    apply write_eq_fetch
    · intro old hget
      rw [set_eq, toList_made, hget]
      rfl
    · intro hget
      rw [set_eq, toList_made, hget]
      rfl

variable {b : Buffer α}

theorem addresses (short : b.toList.length < UInt64.size) : Addresses toList b :=
  (madeOf_made b.storage).addresses short

theorem rewrites (short : b.toList.length < UInt64.size) : Rewrites toList b :=
  (madeOf_made b.storage).rewrites short

end Buffer

/-- The operators of a list for positions that have to exist: they read, write and fail as access
does. -/
structure LinkedList.Demands (l : LinkedList α) : Prop where
  read : ∀ idx, Insists (l.get idx) (l.getOrAbort idx)
  write : ∀ idx x, Insists (l.get idx) (Change.answer <$> l.setOrAbort idx x)
  after : ∀ idx x, (l.setOrAbort idx x).value.after = rewritten l idx x

theorem LinkedList.demands {l : LinkedList α} (h : Rewrites LinkedList.toList l) : l.Demands where
  read idx := insists_of_mapError rfl (by simp [getOrAbort])
  write idx x := by
    have hanswer : (l.set idx x).value.answer = (l.get idx).value := h.answer idx x
    have hlog : (l.set idx x).log = (l.get idx).log := h.log idx x
    apply insists_of_mapError
    · rw [← hanswer]
      rfl
    · simp [setOrAbort, hlog]
  after _ _ := rfl

/-- Access by position, for every list that operations can build, every tuple and every buffer whose
length a word counts, and for every position: it succeeds below the length and fails from there on
with the position and the number of elements, writing addresses what reading gives, and a write
changes the element it addresses and nothing else. -/
theorem positional_access [BEq α] :
    (∀ l : LinkedList α, l.Reachable →
        Addresses LinkedList.toList l ∧ Rewrites LinkedList.toList l ∧ l.Demands) ∧
      (∀ t : Tuple α, t.Short →
        Addresses Tuple.toList t ∧ ∀ idx, Insists (t.get idx) (t.getOrAbort idx)) ∧
      ∀ b : Buffer α, b.toList.length < UInt64.size →
        Addresses Buffer.toList b ∧ Rewrites Buffer.toList b := by
  refine ⟨fun l reachable => ?_, fun t short => ?_, fun b short => ?_⟩
  · have hl := reachable.holds
    exact ⟨hl.addresses, hl.rewrites, LinkedList.demands hl.rewrites⟩
  · refine ⟨short.addresses, fun idx => insists_of_mapError rfl ?_⟩
    simp [Tuple.getOrAbort]
  · exact ⟨Buffer.addresses short, Buffer.rewrites short⟩

/-- The farthest position of a list, a tuple and a full buffer of two, and writes to the list in
either order. -/
theorem positional_access_of_two :
    (LinkedList.ofList [(5 : UInt8), 6]).value.get 18446744073709551615 =
        ⟨.error (.outOfRange 18446744073709551615 2), [.rejected 18446744073709551615 2]⟩ ∧
      (Tuple.ofList [(5 : UInt8), 6]).get 18446744073709551615 =
        ⟨.error (.outOfRange 18446744073709551615 2), [.rejected 18446744073709551615 2]⟩ ∧
      (⟨.fixed 2, #[5, 6]⟩ : Buffer UInt8).get 18446744073709551615 =
        ⟨.error (.outOfRange 18446744073709551615 2), [.rejected 18446744073709551615 2]⟩ ∧
      rewritten (rewritten (LinkedList.ofList [(5 : UInt8), 6]).value 0 7) 1 8 =
        rewritten (rewritten (LinkedList.ofList [(5 : UInt8), 6]).value 1 8) 0 7 := by
  obtain ⟨hlist, htuple, hbuffer⟩ := @positional_access UInt8 _
  obtain ⟨hread, hwrite, -⟩ := hlist _ (.ofList [5, 6] (by decide))
  refine ⟨hread.beyond _ (by decide), ?_, ?_, hwrite.commute 0 1 7 8 (by decide)⟩
  · exact (htuple (.ofList [5, 6]) (by decide)).1.beyond _ (by decide)
  · exact (hbuffer ⟨.fixed 2, #[5, 6]⟩ (by decide)).1.beyond _ (by decide)

end SeqStore
