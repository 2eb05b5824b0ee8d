import Mathlib.Tactic.SplitIfs
import SeqStore.Element.Basic

/-!
Hash feeds can be told apart. The feed of a word has a fixed length, that of a text ends with a
byte that UTF-8 has no use for, and that of a tuple says first how many feeds follow. In each case
the bytes say by themselves where the feed ends, whatever comes after it. So tuples are fed as the
same bytes only if they are equal, and no tuple is fed as the start of another.
-/

namespace SeqStore

variable {α : Type}

namespace Feed

/-- The bytes of a feed tell the value and where they end, whatever follows. -/
def SelfDelimiting (feed : α → List UInt8) : Prop :=
  ∀ ⦃x y : α⦄ ⦃r s : List UInt8⦄, feed x ++ r = feed y ++ s → x = y ∧ r = s

/-! ## Words and bytes -/

/-- The number that bytes stand for, the lowest first. -/
def ofBytes : List UInt8 → Nat
  | [] => 0
  | b :: bs => b.toNat + 256 * ofBytes bs

theorem ofBytes_word (w : UInt64) : ofBytes (word w) = w.toNat := by
  have hw := w.toNat_lt
  simp only [word, List.map_cons, List.map_nil, ofBytes, UInt64.toNat_toUInt8,
    UInt64.toNat_shiftRight, UInt64.reduceToNat, Nat.shiftRight_eq_div_pow, Nat.reduceMod,
    Nat.reducePow]
  omega

theorem word_append_inj {v w : UInt64} {r s : List UInt8} (h : word v ++ r = word w ++ s) :
    v = w ∧ r = s := by
  obtain ⟨hword, hrest⟩ := List.append_inj h rfl
  refine ⟨UInt64.toNat_inj.mp ?_, hrest⟩
  rw [← ofBytes_word v, ← ofBytes_word w, hword]

theorem selfDelimiting_int64 : SelfDelimiting (feed : Int64 → List UInt8) := by
  intro m n r s h
  obtain ⟨hword, hrest⟩ := word_append_inj h
  exact ⟨congrArg Int64.ofUInt64 hword, hrest⟩

theorem selfDelimiting_byte : SelfDelimiting (feed : UInt8 → List UInt8) := by
  intro m n r s h
  exact List.cons.inj h

/-! ## Texts -/

theorem utf8EncodeChar_lt_close (c : Char) : ∀ b ∈ String.utf8EncodeChar c, b < 0xff := by
  unfold String.utf8EncodeChar
  generalize c.val.toNat = code
  dsimp only
  -- one case for each number of bytes
  split_ifs <;> simp [UInt8.lt_iff_toNat_lt] <;> omega

theorem close_not_mem_flatMap (cs : List Char) : 0xff ∉ cs.flatMap String.utf8EncodeChar := by
  intro h
  obtain ⟨c, -, hc⟩ := List.mem_flatMap.mp h
  exact absurd (utf8EncodeChar_lt_close c _ hc) (by decide)

theorem utf8_injective {a b : String}
    (h : a.toList.flatMap String.utf8EncodeChar = b.toList.flatMap String.utf8EncodeChar) :
    a = b := by
  apply String.toByteArray_inj.mp
  rw [← String.utf8Encode_toList, ← String.utf8Encode_toList, List.utf8Encode, List.utf8Encode, h]

/-- A byte that stands nowhere before cuts both sides at the same place. -/
private theorem append_cons_inj {a : UInt8} {xs ys r s : List UInt8} (hxs : a ∉ xs) (hys : a ∉ ys)
    (h : xs ++ a :: r = ys ++ a :: s) : xs = ys ∧ r = s := by
  induction xs generalizing ys with
  | nil =>
    cases ys with
    | nil => exact ⟨rfl, (List.cons.inj h).2⟩
    | cons y ys => exact absurd (List.cons.inj h).1 (fun e => hys (by simp [e]))
  | cons x xs ih =>
    cases ys with
    | nil => exact absurd (List.cons.inj h).1 (fun e => hxs (by simp [e]))
    | cons y ys =>
      obtain ⟨hhead, htail⟩ := List.cons.inj h
      obtain ⟨hrest, hafter⟩ := ih (List.not_mem_of_not_mem_cons hxs)
        (List.not_mem_of_not_mem_cons hys) htail
      exact ⟨by rw [hhead, hrest], hafter⟩

theorem selfDelimiting_text : SelfDelimiting (feed : String → List UInt8) := by
  intro a b r s h
  change text a ++ r = text b ++ s at h
  simp only [text, List.append_assoc, List.singleton_append] at h
  obtain ⟨hbytes, hrest⟩ :=
    append_cons_inj (close_not_mem_flatMap a.toList) (close_not_mem_flatMap b.toList) h
  exact ⟨utf8_injective hbytes, hrest⟩

end Feed

/-! ## Tuples -/

namespace Tuple

/-- Few enough elements for a word to count. -/
def Short (t : Tuple α) : Prop := t.toList.length < UInt64.size

instance (t : Tuple α) : Decidable t.Short :=
  inferInstanceAs (Decidable (t.toList.length < UInt64.size))

theorem Short.count_eq {t : Tuple α} (h : t.Short) : t.count.toNat = t.toList.length :=
  UInt64.toNat_ofNat_of_lt h

theorem toList_inj {t u : Tuple α} (h : t.toList = u.toList) : t = u := by
  cases t
  cases u
  simpa [toList] using h

theorem beq_eq [BEq α] (t u : Tuple α) : (t == u) = (t.toList == u.toList) := by
  change (t.elements == u.elements) = _
  simp [toList]

instance [BEq α] [LawfulBEq α] : LawfulBEq (Tuple α) where
  eq_of_beq h := toList_inj (eq_of_beq (by rwa [beq_eq] at h))
  rfl := by
    intro t
    rw [beq_eq]
    exact BEq.rfl

end Tuple

namespace Feed

/-- With as many feeds on both sides, the first is told apart from the rest on both. -/
theorem SelfDelimiting.each {feed : α → List UInt8} (h : SelfDelimiting feed) {xs ys : List α}
    {r s : List UInt8} (hlength : xs.length = ys.length)
    (heq : xs.flatMap feed ++ r = ys.flatMap feed ++ s) : xs = ys ∧ r = s := by
  induction xs generalizing ys with
  | nil =>
    obtain rfl := List.eq_nil_of_length_eq_zero hlength.symm
    exact ⟨rfl, heq⟩
  | cons x xs ih =>
    cases ys with
    | nil => simp at hlength
    | cons y ys =>
      simp only [List.flatMap_cons, List.append_assoc] at heq
      obtain ⟨hhead, htail⟩ := h heq
      obtain ⟨hrest, hafter⟩ := ih (by simpa using hlength) htail
      exact ⟨by rw [hhead, hrest], hafter⟩

theorem SelfDelimiting.tuple {feed : α → List UInt8} (h : SelfDelimiting feed) {t u : Tuple α}
    (ht : t.Short) (hu : u.Short) {r s : List UInt8}
    (heq : Feed.tuple feed t ++ r = Feed.tuple feed u ++ s) : t = u ∧ r = s := by
  simp only [Feed.tuple, List.append_assoc] at heq
  obtain ⟨hcount, hbytes⟩ := word_append_inj heq
  have hlength : t.toList.length = u.toList.length := by
    rw [← ht.count_eq, ← hu.count_eq, hcount]
  obtain ⟨helements, hrest⟩ := h.each hlength hbytes
  exact ⟨Tuple.toList_inj helements, hrest⟩

theorem SelfDelimiting.tuples {feed : α → List UInt8} (h : SelfDelimiting feed)
    {ts us : List (Tuple α)} (hts : ∀ t ∈ ts, t.Short) (hus : ∀ u ∈ us, u.Short)
    (heq : ts.flatMap (Feed.tuple feed) = us.flatMap (Feed.tuple feed)) : ts = us := by
  -- a tuple is opened by its count, so none is fed as nothing at all
  induction ts generalizing us with
  | nil =>
    cases us with
    | nil => rfl
    | cons u us => simp [Feed.tuple, word] at heq
  | cons t ts ih =>
    cases us with
    | nil => simp [Feed.tuple, word] at heq
    | cons u us =>
      simp only [List.flatMap_cons] at heq
      obtain ⟨hhead, htail⟩ := h.tuple (hts t List.mem_cons_self) (hus u List.mem_cons_self) heq
      have hrest := ih (fun t ht => hts t (List.mem_cons_of_mem _ ht))
        (fun u hu => hus u (List.mem_cons_of_mem _ hu)) htail
      rw [hhead, hrest]

/-- A tuple that is fed as the start of another is that other. -/
theorem SelfDelimiting.eq_of_start {feed : α → List UInt8} (h : SelfDelimiting feed)
    {t u : Tuple α} (ht : t.Short) (hu : u.Short)
    (hstart : Feed.tuple feed t <+: Feed.tuple feed u) : t = u := by
  obtain ⟨rest, hrest⟩ := hstart
  have heq : Feed.tuple feed t ++ rest = Feed.tuple feed u ++ [] := by
    rw [hrest, List.append_nil]
  exact (h.tuple ht hu heq).1

/-- The feeds of tuples agree with their equality: equal tuples are fed alike, of two others
neither is fed as the start of the other, and of several tuples in a row each can be made out. -/
structure Unambiguous (α : Type) [BEq α] [Feed α] : Prop where
  equal : ∀ t u : Tuple α, t == u → feed t = feed u
  distinct : ∀ t u : Tuple α, t.Short → u.Short → ¬(t == u) →
    ¬feed t <+: feed u ∧ ¬feed u <+: feed t
  several : ∀ ts us : List (Tuple α), (∀ t ∈ ts, t.Short) → (∀ u ∈ us, u.Short) →
    ts.flatMap feed = us.flatMap feed → ts == us

theorem SelfDelimiting.unambiguous [BEq α] [LawfulBEq α] [Feed α]
    (h : SelfDelimiting (feed : α → List UInt8)) : Unambiguous α := by
  refine ⟨?_, ?_, ?_⟩
  · intro t u htu
    rw [eq_of_beq htu]
  · intro t u ht hu hne
    rw [beq_iff_eq] at hne
    exact ⟨fun hstart => hne (h.eq_of_start ht hu hstart),
      fun hstart => hne (h.eq_of_start hu ht hstart).symm⟩
  · intro ts us hts hus heq
    rw [beq_iff_eq]
    exact h.tuples hts hus heq

end Feed

/-- For tuples of integers, of bytes and of texts: what is fed to a hasher is the same for equal
tuples, never the start of what is fed for another tuple, and unambiguous also for several tuples
one after the other. -/
theorem tuple_feeds_unambiguous :
    Feed.Unambiguous Int64 ∧ Feed.Unambiguous UInt8 ∧ Feed.Unambiguous String :=
  ⟨Feed.selfDelimiting_int64.unambiguous, Feed.selfDelimiting_byte.unambiguous,
    Feed.selfDelimiting_text.unambiguous⟩

/-- The boundary between two texts is not lost, nor is an empty text in front. -/
theorem tuple_feeds_unambiguous_moved_boundary :
    (¬Feed.feed (Tuple.ofList ["ab", "c"]) <+: Feed.feed (Tuple.ofList ["a", "bc"]) ∧
        ¬Feed.feed (Tuple.ofList ["a", "bc"]) <+: Feed.feed (Tuple.ofList ["ab", "c"])) ∧
      ¬Feed.feed (Tuple.ofList ["", "é"]) <+: Feed.feed (Tuple.ofList ["é", ""]) := by
  have htexts := tuple_feeds_unambiguous.2.2
  exact ⟨htexts.distinct _ _ (by decide) (by decide) (by decide),
    (htexts.distinct _ _ (by decide) (by decide) (by decide)).1⟩

end SeqStore
