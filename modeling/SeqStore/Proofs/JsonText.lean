import SeqStore.Json.Reader

/-!
What is written is read back. The text of an integer, of a string and of an array of such values
gives the value again when it is read, and leaves what follows it untouched; a string comes back
with every character it had, escaped or not. Arrays may lie in one another as deep as the reader
follows them.
-/

namespace SeqStore.Json

/-! ## What may follow a value -/

/-- In an array a value is followed by a comma or by the closing mark, otherwise by nothing. -/
def Ends (cs : List Char) : Prop := ∀ c ∈ cs.head?, c = ',' ∨ c = ']'

theorem ends_nil : Ends [] := nofun

theorem ends_comma (cs : List Char) : Ends (',' :: cs) := by simp [Ends]

theorem ends_close (cs : List Char) : Ends (']' :: cs) := by simp [Ends]

/-! ## Integers -/

private theorem head?_toDigits_ne_zero {n : Nat} (h : 0 < n) :
    (Nat.toDigits 10 n).head? ≠ some '0' := by
  induction n using Nat.strongRecOn with
  | ind n ih =>
    by_cases hn : n < 10
    · rw [Nat.toDigits_of_lt_base hn]
      simp only [List.head?_cons, ne_eq, Option.some.injEq, Nat.digitChar_eq_zero]
      omega
    · have hlead := ih (n / 10) (by omega) (by omega)
      rw [Nat.toDigits_of_base_le (by decide) (by omega)]
      cases hdigits : Nat.toDigits 10 (n / 10) with
      | nil => exact absurd hdigits Nat.toDigits_ne_nil
      | cons d ds => simpa [hdigits] using hlead

theorem digits1_append {ds rest : List Char} (hne : ds ≠ []) (hds : ∀ d ∈ ds, d.isDigit)
    (hrest : Ends rest) : digits1 (ds ++ rest) = some (ds, rest) := by
  have hnone : rest.takeWhile Char.isDigit = [] ∧ rest.dropWhile Char.isDigit = rest := by
    cases rest with
    | nil => exact ⟨rfl, rfl⟩
    | cons c cs =>
      have hc : c.isDigit = false := by rcases hrest c rfl with rfl | rfl <;> rfl
      simp [hc]
  unfold digits1
  rw [List.takeWhile_append_of_pos hds, List.dropWhile_append_of_pos hds, hnone.1, hnone.2,
    List.append_nil]
  cases ds with
  | nil => exact absurd rfl hne
  | cons d ds => rfl

/-- The digits of a number never start with a zero that is not the whole number. -/
theorem wholePart_toDigits (n : Nat) {rest : List Char} (hrest : Ends rest) :
    wholePart (Nat.toDigits 10 n ++ rest) = some (Nat.toDigits 10 n, rest) := by
  have hdigits : ∀ d ∈ Nat.toDigits 10 n, d.isDigit :=
    fun d hd => Nat.isDigit_of_mem_toDigits (by decide) (by decide) hd
  unfold wholePart
  rw [digits1_append Nat.toDigits_ne_nil hdigits hrest]
  rcases Nat.eq_zero_or_pos n with rfl | hpos
  · rfl
  · have hhead := head?_toDigits_ne_zero hpos
    simp only [Option.bind_eq_bind, Option.bind_some]
    split
    · rename_i heq
      rw [heq] at hhead
      exact absurd rfl hhead
    · rfl

theorem fractionPart_of_ends {rest : List Char} (hrest : Ends rest) :
    fractionPart rest = some (none, rest) := by
  unfold fractionPart
  split
  · rcases hrest '.' rfl with h | h <;> cases h
  · rfl

theorem exponentPart_of_ends {rest : List Char} (hrest : Ends rest) :
    exponentPart rest = some (none, rest) := by
  cases rest with
  | nil => rfl
  | cons c cs => rcases hrest c rfl with rfl | rfl <;> rfl

theorem unsignedNumber_toDigits (negative : Bool) (n : Nat) {rest : List Char}
    (hrest : Ends rest) :
    unsignedNumber negative (Nat.toDigits 10 n ++ rest) =
      (wholeNumber negative (Nat.toDigits 10 n)).map fun v => (v, rest) := by
  unfold unsignedNumber
  simp only [wholePart_toDigits n hrest, fractionPart_of_ends hrest, exponentPart_of_ends hrest,
    Option.bind_eq_bind, Option.bind_some]
  cases wholeNumber negative (Nat.toDigits 10 n) <;> rfl

/-- The integers that a word can hold, signed or not. -/
def InWord (n : Int) : Prop := -0x8000000000000000 ≤ n ∧ n < UInt64.size

theorem number_integer {n : Int} (h : InWord n) {rest : List Char} (hrest : Ends rest) :
    number ((Text.integer n).toList ++ rest) = some (.int n, rest) := by
  cases n with
  | ofNat n =>
    have hword : n < UInt64.size := Int.ofNat_lt.mp h.2
    have hwhole : wholeNumber false (Nat.toDigits 10 n) = some (.int n) := by
      simp [wholeNumber, Nat.ofDigitChars_ten_toDigits, hword]
    have hminus : ∀ cs, Nat.toDigits 10 n ++ rest ≠ '-' :: cs := by
      obtain ⟨d, ds, hdigits⟩ := List.exists_cons_of_ne_nil (Nat.toDigits_ne_nil (n := n) (b := 10))
      intro cs heq
      rw [hdigits, List.cons_append, List.cons.injEq] at heq
      have hmem : '-' ∈ Nat.toDigits 10 n := by simp [hdigits, heq.1]
      exact absurd (Nat.isDigit_of_mem_toDigits (by decide) (by decide) hmem) (by decide)
    simp only [Text.integer, Text.natural, String.toList_ofList]
    unfold number
    split
    · rename_i heq
      exact absurd heq (hminus _)
    · rw [unsignedNumber_toDigits false n hrest, hwhole]
      rfl
  | negSucc n =>
    have hword : n + 1 ≤ 0x8000000000000000 := by
      have := h.1
      omega
    have hwhole : wholeNumber true (Nat.toDigits 10 (n + 1)) = some (.int (.negSucc n)) := by
      simp only [wholeNumber, Nat.ofDigitChars_ten_toDigits, hword, Nat.zero_lt_succ, and_self,
        ↓reduceIte]
      rfl
    simp only [Text.integer, Text.natural, String.toList_append, String.toList_ofList]
    change unsignedNumber true (Nat.toDigits 10 (n + 1) ++ rest) = _
    rw [unsignedNumber_toDigits true (n + 1) hrest, hwhole]
    rfl

/-! ## Strings -/

private theorem hexValue_digitChar : ∀ d < 16, hexValue (Nat.digitChar d) = some d := by decide

/-- A control character is written with its number. -/
private theorem escaped_control {c : Char} (h : c.toNat < 0x20) (rest : List Char) :
    escaped ('u' :: '0' :: '0' :: Nat.digitChar (c.toNat / 16) :: Nat.digitChar (c.toNat % 16) ::
      rest) = some (c, rest) := by
  have hhigh := hexValue_digitChar (c.toNat / 16) (by omega)
  have hlow := hexValue_digitChar (c.toNat % 16) (by omega)
  have hzero : hexValue '0' = some 0 := rfl
  have hunit : hexUnit ('0' :: '0' :: Nat.digitChar (c.toNat / 16) ::
      Nat.digitChar (c.toNat % 16) :: rest) = some (c.toNat, rest) := by
    have hnumber : ((0 * 16 + 0) * 16 + c.toNat / 16) * 16 + c.toNat % 16 = c.toNat := by omega
    simp only [hexUnit, hzero, hhigh, hlow, Option.bind_eq_bind, Option.bind_some, hnumber]
    rfl
  have hlone : ¬(0xd800 ≤ c.toNat ∧ c.toNat < 0xdc00) ∧ ¬(0xdc00 ≤ c.toNat ∧ c.toNat < 0xe000) := by
    omega
  simp [escaped, numbered, hunit, hlone.1, hlone.2]

private theorem stringRest_backslash (budget : Nat) {cs rest : List Char} {x : Char}
    (h : escaped cs = some (x, rest)) :
    stringRest (budget + 1) ('\\' :: cs) =
      (stringRest budget rest).map fun (xs, rest) => (x :: xs, rest) := by
  simp only [stringRest, h, Char.reduceEq, ↓reduceIte, Option.bind_eq_bind, Option.bind_some]
  cases stringRest budget rest <;> rfl

private theorem stringRest_plain (budget : Nat) {c : Char} (rest : List Char) (hquote : c ≠ '"')
    (hbackslash : c ≠ '\\') (hcontrol : ¬c.toNat < 0x20) :
    stringRest (budget + 1) (c :: rest) =
      (stringRest budget rest).map fun (xs, rest) => (c :: xs, rest) := by
  simp only [stringRest, hquote, hbackslash, hcontrol, ↓reduceIte]
  cases stringRest budget rest <;> rfl

/-- A character is read as itself, however it is written. -/
theorem stringRest_escape (budget : Nat) (c : Char) (rest : List Char) :
    stringRest (budget + 1) (escape c ++ rest) =
      (stringRest budget rest).map fun (xs, rest) => (c :: xs, rest) := by
  unfold escape
  split
  case h_8 hquote hbackslash _ _ _ _ _ =>
    split
    · rename_i hcontrol
      exact stringRest_backslash budget (escaped_control hcontrol rest)
    · rename_i hcontrol
      exact stringRest_plain budget rest hquote hbackslash hcontrol
  all_goals exact stringRest_backslash budget rfl

theorem stringRest_flatMap_escape (cs : List Char) {budget : Nat} (h : cs.length < budget)
    (rest : List Char) :
    stringRest budget (cs.flatMap escape ++ '"' :: rest) = some (cs, rest) := by
  induction cs generalizing budget with
  | nil =>
    obtain ⟨budget, rfl⟩ : ∃ b, budget = b + 1 := ⟨budget - 1, by omega⟩
    rfl
  | cons c cs ih =>
    rw [List.length_cons] at h
    obtain ⟨budget, rfl⟩ : ∃ b, budget = b + 1 := ⟨budget - 1, by omega⟩
    rw [List.flatMap_cons, List.append_assoc, stringRest_escape, ih (by omega)]
    rfl

private theorem length_le_flatMap_escape (cs : List Char) :
    cs.length ≤ (cs.flatMap escape).length := by
  induction cs with
  | nil => exact Nat.le_refl 0
  | cons c cs ih =>
    have hone : 1 ≤ (escape c).length := by
      unfold escape
      split
      case h_8 => split <;> simp
      all_goals decide
    rw [List.flatMap_cons, List.length_append, List.length_cons]
    omega

theorem stringBody_chars (s : String) (rest : List Char) :
    stringBody (s.toList.flatMap escape ++ '"' :: rest) = some (s, rest) := by
  have hlength := length_le_flatMap_escape s.toList
  unfold stringBody
  rw [stringRest_flatMap_escape s.toList (by rw [List.length_append]; omega)]
  simp

/-! ## Values -/

theorem charsEach_eq (items : List Json) : charsEach items = items.map chars := by
  induction items with
  | nil => rfl
  | cons v vs ih => rw [charsEach, ih, List.map_cons]

private theorem ofList_separated (parts : List (List Char)) :
    String.ofList (separated parts) = ",".intercalate (parts.map String.ofList) := by
  fun_induction separated parts with
  | case1 => simp
  | case2 p => simp
  | case3 p q rest ih =>
    rw [List.map_cons] at ih
    rw [String.ofList_append, String.ofList_cons, ih, List.map_cons, List.map_cons,
      String.intercalate_cons_cons, String.append_assoc]
    rfl

/-- An array is the texts of its items with commas between them, in square brackets. -/
theorem render_array (items : List Json) :
    (array items).render = "[" ++ ",".intercalate (items.map render) ++ "]" := by
  have hitems : (items.map chars).map String.ofList = items.map render := List.map_map
  rw [render, chars, charsEach_eq, ← hitems, ← ofList_separated, String.ofList_append,
    String.ofList_cons]
  rfl

/-- The values that containers are written as: integers that fit a word, strings, and arrays of
these, with at most `depth` arrays in one another. -/
inductive Legible : Nat → Json → Prop
  | int {depth : Nat} {n : Int} (h : InWord n) : Legible depth (.int n)
  | string {depth : Nat} (s : String) : Legible depth (.string s)
  | array {depth : Nat} {items : List Json} (h : ∀ v ∈ items, Legible depth v) :
      Legible (depth + 1) (.array items)

/-- What a value can start with: no blank, and no mark that closes an array. -/
def Opens (c : Char) : Prop := isBlank c = false ∧ c ≠ ']'

private theorem ne_of_isNumeral {c x : Char} (h : Text.isNumeral c)
    (hx : Text.isNumeral x = false) : c ≠ x := by
  rintro rfl
  exact absurd h (by simp [hx])

private theorem opens_of_isNumeral {c : Char} (h : Text.isNumeral c) : Opens c := by
  refine ⟨?_, ne_of_isNumeral h rfl⟩
  have hblank : c ≠ ' ' ∧ c ≠ '\n' ∧ c ≠ '\t' ∧ c ≠ '\r' :=
    ⟨ne_of_isNumeral h rfl, ne_of_isNumeral h rfl, ne_of_isNumeral h rfl, ne_of_isNumeral h rfl⟩
  simp [isBlank, hblank]

theorem Legible.chars_eq_cons {depth : Nat} {v : Json} (h : Legible depth v) :
    ∃ c cs, v.chars = c :: cs ∧ Opens c := by
  cases h with
  | @int _ n _ =>
    obtain ⟨c, cs, hchars, hc⟩ := Text.integer_begins n
    exact ⟨c, cs, hchars, opens_of_isNumeral hc⟩
  | string s => exact ⟨'"', _, rfl, rfl, by decide⟩
  | array _ => exact ⟨'[', _, by rw [chars, List.cons_append], rfl, by decide⟩

theorem skipBlanks_cons {c : Char} (h : isBlank c = false) (cs : List Char) :
    skipBlanks (c :: cs) = c :: cs := by
  simp [skipBlanks, h]

/-- What does not open an array or an object is read as a value without parts. -/
theorem value_eq_scalar (depth : Nat) {c : Char} (cs : List Char) (hblank : isBlank c = false)
    (harray : c ≠ '[') (hobject : c ≠ '\x7b') : value depth (c :: cs) = scalar (c :: cs) := by
  cases depth with
  | zero => rw [value, skipBlanks_cons hblank]
  | succ depth =>
    unfold value
    rw [skipBlanks_cons hblank]
    split
    · rename_i heq
      exact absurd (List.cons.inj heq).1 harray
    · rename_i heq
      exact absurd (List.cons.inj heq).1 hobject
    · rfl

theorem scalar_eq_number {c : Char} (cs : List Char) (h : Text.isNumeral c) :
    scalar (c :: cs) = number (c :: cs) := by
  have hne : c ≠ 'n' ∧ c ≠ 't' ∧ c ≠ 'f' ∧ c ≠ '"' :=
    ⟨ne_of_isNumeral h rfl, ne_of_isNumeral h rfl, ne_of_isNumeral h rfl, ne_of_isNumeral h rfl⟩
  unfold scalar
  split <;> simp_all

theorem value_integer (depth : Nat) {n : Int} (h : InWord n) {rest : List Char}
    (hrest : Ends rest) :
    value depth ((Text.integer n).toList ++ rest) = some (.int n, rest) := by
  obtain ⟨c, cs, hchars, hc⟩ := Text.integer_begins n
  have hnumber := number_integer h hrest
  rw [hchars, List.cons_append] at hnumber ⊢
  rw [value_eq_scalar depth _ (opens_of_isNumeral hc).1 (ne_of_isNumeral hc rfl)
    (ne_of_isNumeral hc rfl), scalar_eq_number _ hc, hnumber]

theorem value_string (depth : Nat) (s : String) (rest : List Char) :
    value depth (stringChars s ++ rest) = some (.string s, rest) := by
  have hscalar : scalar (stringChars s ++ rest) = some (.string s, rest) := by
    simp [stringChars, scalar, stringBody_chars]
  rw [← hscalar]
  exact value_eq_scalar depth _ rfl (by decide) (by decide)

/-! ## Arrays -/

/-- Items that are each read back are so in a series too. -/
theorem itemsUntil_separated {β : Type} {read : Reader β} {write : β → List Char} {items : List β}
    (hne : items ≠ [])
    (hread : ∀ x ∈ items, ∀ rest, Ends rest → read (write x ++ rest) = some (x, rest))
    {budget : Nat} (hbudget : items.length ≤ budget) (rest : List Char) :
    itemsUntil read ']' budget (separated (items.map write) ++ ']' :: rest) =
      (items, some rest) := by
  induction items generalizing budget with
  | nil => exact absurd rfl hne
  | cons x items ih =>
    rw [List.length_cons] at hbudget
    obtain ⟨budget, rfl⟩ : ∃ b, budget = b + 1 := ⟨budget - 1, by omega⟩
    have hfirst := hread x List.mem_cons_self
    cases items with
    | nil =>
      have hclose : skipBlanks (']' :: rest) = ']' :: rest := skipBlanks_cons rfl rest
      simp [separated, itemsUntil, hfirst _ (ends_close rest), hclose]
    | cons y items =>
      have hbudget' : (y :: items).length ≤ budget := by omega
      have hrest := ih (by simp) (fun z hz => hread z (List.mem_cons_of_mem _ hz)) hbudget'
      have hcomma (cs : List Char) : skipBlanks (',' :: cs) = ',' :: cs := skipBlanks_cons rfl cs
      simp only [List.map_cons] at hrest ⊢
      rw [separated, List.append_assoc, List.cons_append, itemsUntil, hfirst _ (ends_comma _)]
      simp only [hcomma, Char.reduceEq, ↓reduceIte, hrest]

private theorem length_le_separated (parts : List (List Char)) :
    parts.length ≤ (separated parts).length + 1 := by
  fun_induction separated parts with
  | case1 => exact Nat.zero_le _
  | case2 p => exact Nat.le_add_left 1 _
  | case3 p q rest ih =>
    simp only [List.length_cons, List.length_append] at ih ⊢
    omega

/-- The inside of an array, its closing mark included, is read back as its items. -/
theorem series_separated {β : Type} {read : Reader β} {write : β → List Char} {items : List β}
    (hread : ∀ x ∈ items, ∀ rest, Ends rest → read (write x ++ rest) = some (x, rest))
    (hopen : ∀ x ∈ items, ∃ c cs, write x = c :: cs ∧ Opens c) (rest : List Char) :
    seriesUntil read ']' (separated (items.map write) ++ ']' :: rest) = (items, some rest) := by
  cases items with
  | nil =>
    have hclose : skipBlanks (']' :: rest) = ']' :: rest := skipBlanks_cons rfl rest
    simp [separated, seriesUntil, hclose]
  | cons x items =>
    obtain ⟨c, cs, hwrite, hblank, hclose⟩ := hopen x List.mem_cons_self
    obtain ⟨tail, hcons⟩ : ∃ tail, separated ((x :: items).map write) = c :: tail := by
      cases items with
      | nil => exact ⟨cs, hwrite⟩
      | cons y items => exact ⟨cs ++ _, by rw [List.map_cons, List.map_cons, separated, hwrite,
          List.cons_append]⟩
    have hlength := length_le_separated ((x :: items).map write)
    have hbudget : (x :: items).length ≤
        (separated ((x :: items).map write) ++ ']' :: rest).length + 1 := by
      rw [List.length_map] at hlength
      rw [List.length_append]
      omega
    have hitems := itemsUntil_separated (List.cons_ne_nil x items) hread hbudget rest
    unfold seriesUntil
    rw [hcons, List.cons_append] at hitems ⊢
    simp only [skipBlanks_cons hblank, hclose, ↓reduceIte, hitems]

theorem value_array {depth : Nat} {cs rest : List Char} {items : List Json}
    (h : seriesUntil (value depth) ']' cs = (items, some rest)) :
    value (depth + 1) ('[' :: cs) = some (.array items, rest) := by
  rw [value, skipBlanks_cons rfl]
  simp [series, h]

/-- A value is read back from its text, whatever stands behind it in an array. -/
theorem value_chars {depth : Nat} {v : Json} (h : Legible depth v) {rest : List Char}
    (hrest : Ends rest) : value depth (v.chars ++ rest) = some (v, rest) := by
  induction h generalizing rest with
  | @int depth n hn => exact value_integer depth hn hrest
  | @string depth s => exact value_string depth s rest
  | @array depth items hitems ih =>
    have hseries : seriesUntil (value depth) ']' (separated (items.map chars) ++ ']' :: rest) =
        (items, some rest) :=
      series_separated (fun x hx rest hrest => ih x hx hrest)
        (fun x hx => (hitems x hx).chars_eq_cons) rest
    rw [chars, charsEach_eq, List.append_assoc, List.cons_append, List.singleton_append]
    exact value_array hseries

/-- The text of a value, on its own, gives the value back. -/
theorem read?_render {v : Json} (h : Legible maxDepth v) : read? v.render = some v := by
  have hvalue := value_chars h ends_nil
  rw [List.append_nil] at hvalue
  simp [read?, render, hvalue, skipBlanks]

end SeqStore.Json
