import Mathlib.Data.String.Basic
import SeqStore.Proofs.DisplayText
import SeqStore.Proofs.Nested
import SeqStore.Session.Vessel

/-!
Texts in sinks with limited room. What a sink takes of a text does not depend on the pieces that
the text comes in: it is the longest start of the text that fits, cut between characters by a sink
of characters and between bytes by a sink of bytes. A sink need not even remember that it refused a
unit, because the first refusal ends the writing.
-/

namespace SeqStore

namespace Sink

variable {υ : Type} (cost : υ → Nat)

/-! ## The units that fit -/

/-- What the units cost together. -/
def total : List υ → Nat
  | [] => 0
  | u :: us => cost u + total us

@[simp] theorem total_nil : total cost [] = 0 := rfl

@[simp] theorem total_cons (u : υ) (us : List υ) :
    total cost (u :: us) = cost u + total cost us := rfl

/-- The units that fit, up to the first that does not. -/
def fitting : (room : Nat) → List υ → List υ
  | _, [] => []
  | room, u :: us => if cost u ≤ room then u :: fitting (room - cost u) us else []

theorem fitting_isPrefix (room : Nat) (us : List υ) : fitting cost room us <+: us := by
  induction us generalizing room with
  | nil => exact List.prefix_rfl
  | cons u us ih =>
    rw [fitting]
    split
    · exact List.cons_prefix_cons.mpr ⟨rfl, ih _⟩
    · exact List.nil_prefix

theorem total_fitting_le (room : Nat) (us : List υ) : total cost (fitting cost room us) ≤ room := by
  induction us generalizing room with
  | nil => exact Nat.zero_le _
  | cons u us ih =>
    rw [fitting]
    split
    · have hrest := ih (room - cost u)
      rw [total_cons]
      omega
    · exact Nat.zero_le _

/-- No start that fits goes further. -/
theorem isPrefix_fitting {room : Nat} {us vs : List υ} (hstart : vs <+: us)
    (hfits : total cost vs ≤ room) : vs <+: fitting cost room us := by
  induction us generalizing room vs with
  | nil => exact hstart
  | cons u us ih =>
    cases vs with
    | nil => exact List.nil_prefix
    | cons v vs =>
      obtain ⟨rfl, hrest⟩ := List.cons_prefix_cons.mp hstart
      rw [total_cons] at hfits
      have hroom : cost v ≤ room := by omega
      rw [fitting, if_pos hroom]
      exact List.cons_prefix_cons.mpr ⟨rfl, ih hrest (by omega)⟩

theorem fitting_of_le {room room' : Nat} (h : room ≤ room') (us : List υ) :
    fitting cost room us <+: fitting cost room' us :=
  isPrefix_fitting cost (fitting_isPrefix cost room us)
    (Nat.le_trans (total_fitting_le cost room us) h)

/-- Of units of one byte each, as many fit as there is room for. -/
theorem fitting_one (room : Nat) (us : List υ) : fitting (fun _ => 1) room us = us.take room := by
  induction us generalizing room with
  | nil => rw [fitting, List.take_nil]
  | cons u us ih =>
    cases room with
    | zero => rfl
    | succ room => simp [fitting, ih]

theorem total_one (us : List υ) : total (fun _ => 1) us = us.length := by
  induction us with
  | nil => rfl
  | cons u us ih => rw [total_cons, ih, List.length_cons, Nat.add_comm]

/-! ## Writing -/

theorem write_of_stopped {s : Sink υ} (h : s.stopped = true) (us : List υ) :
    s.write cost us = s := by
  induction us with
  | nil => rfl
  | cons u us ih =>
    have hoffer : s.offer cost u = s := by rw [offer, if_pos h]
    rw [write, List.foldl_cons, hoffer]
    exact ih

/-- A sink takes what fits of the units, and stops if that is not all. -/
theorem write_spec {s : Sink υ} (h : s.stopped = false) (us : List υ) :
    (s.write cost us).taken.toList = s.taken.toList ++ fitting cost s.room us ∧
      ((s.write cost us).stopped = true ↔ s.room < total cost us) := by
  induction us generalizing s with
  | nil => simp [write, fitting, h]
  | cons u us ih =>
    rw [write, List.foldl_cons, ← write, fitting, total_cons]
    by_cases hroom : cost u ≤ s.room
    · have hoffer : s.offer cost u = ⟨s.room - cost u, s.taken.push u, false⟩ := by
        simp [offer, h, hroom]
      obtain ⟨htaken, hstopped⟩ := ih (s := ⟨s.room - cost u, s.taken.push u, false⟩) rfl
      rw [hoffer, htaken, hstopped, if_pos hroom]
      refine ⟨by simp, ?_⟩
      show s.room - cost u < total cost us ↔ s.room < cost u + total cost us
      omega
    · have hoffer : s.offer cost u = { s with stopped := true } := by simp [offer, h, hroom]
      rw [hoffer, write_of_stopped cost rfl, if_neg hroom]
      refine ⟨by simp, ?_⟩
      simp only [true_iff]
      omega

/-- It does not matter how the units are cut into pieces. -/
theorem writeAll_eq (s : Sink υ) (pieces : List (List υ)) :
    s.writeAll cost pieces = s.write cost pieces.flatten :=
  List.foldl_flatten.symm

theorem writeAll_of_stopped {s : Sink υ} (h : s.stopped = true) (pieces : List (List υ)) :
    s.writeAll cost pieces = s := by
  rw [writeAll_eq, write_of_stopped cost h]

/-- Write piece after piece to a sink that does not remember a refusal, and end with the first piece
that is not taken whole. -/
def writeUntilRefused (s : Sink υ) : List (List υ) → Sink υ
  | [] => s
  | piece :: rest =>
      let next := write cost { s with stopped := false } piece
      if next.stopped then next else next.writeUntilRefused rest

theorem writeAll_eq_writeUntilRefused {s : Sink υ} (h : s.stopped = false)
    (pieces : List (List υ)) : s.writeAll cost pieces = s.writeUntilRefused cost pieces := by
  induction pieces generalizing s with
  | nil => rfl
  | cons piece rest ih =>
    have hforget : { s with stopped := false } = s := by rw [← h]
    rw [writeAll, List.foldl_cons, ← writeAll, writeUntilRefused, hforget]
    cases hnext : (s.write cost piece).stopped with
    | true => simp [writeAll_of_stopped cost hnext]
    | false => simp [ih hnext]

end Sink

namespace Display

/-! ## Characters and bytes -/

theorem total_utf8Size (s : String) : Sink.total Char.utf8Size s.toList = s.utf8ByteSize := by
  rw [← String.utf8Len_toList]
  induction s.toList with
  | nil => rfl
  | cons c cs ih => rw [Sink.total_cons, ih, String.utf8Len_cons, Nat.add_comm]

theorem utf8_eq (s : String) : utf8 s = s.toUTF8.data.toList := by
  rw [utf8, String.toUTF8, ← String.utf8Encode_toList, List.utf8Encode, List.data_toByteArray]

theorem utf8_join (parts : List String) : utf8 (String.join parts) = parts.flatMap utf8 := by
  rw [utf8, String.toList_join, List.flatMap_assoc]
  rfl

variable {γ : Type} [Display γ]

theorem into_spec (limit : Nat) (x : γ) :
    (into limit x).taken.toList = Sink.fitting Char.utf8Size limit (text x).toList ∧
      ((into limit x).stopped = true ↔ limit < (text x).utf8ByteSize) := by
  have hwrite := Sink.write_spec Char.utf8Size (s := ⟨limit, #[], false⟩) rfl (text x).toList
  rw [total_utf8Size, toList_text, List.flatMap, ← Sink.writeAll_eq] at hwrite
  rw [toList_text]
  exact hwrite

theorem join_line (x : γ) : String.join (line x) = text x ++ "\n" := by
  rw [line, String.join_append]
  rfl

/-- All bytes of the line of `x`. -/
theorem flatMap_line (x : γ) : (line x).flatMap utf8 = (text x ++ "\n").toUTF8.data.toList := by
  rw [← utf8_eq, ← join_line, utf8_join]

theorem lineInto_spec (limit : Nat) (x : γ) :
    (lineInto limit x).taken.toList = (text x ++ "\n").toUTF8.data.toList.take limit ∧
      ((lineInto limit x).stopped = true ↔ limit < (text x ++ "\n").utf8ByteSize) := by
  have hwrite := Sink.write_spec (fun _ => 1) (s := ⟨limit, #[], false⟩) rfl
    ((line x).flatMap utf8)
  rw [Sink.total_one, Sink.fitting_one, List.flatMap, ← Sink.writeAll_eq, ← List.flatMap,
    flatMap_line] at hwrite
  exact hwrite

theorem ofText_into {α : Type} (limit : Nat) (x : γ) :
    (.ofText (into limit x) : Answer α) =
      .shown (String.ofList (Sink.fitting Char.utf8Size limit (text x).toList))
        (decide ((text x).utf8ByteSize ≤ limit)) := by
  obtain ⟨htaken, hstopped⟩ := into_spec limit x
  have hcomplete : (!(into limit x).stopped) = decide ((text x).utf8ByteSize ≤ limit) := by
    rw [Bool.eq_iff_iff, Bool.not_eq_true', ← Bool.not_eq_true, hstopped, Nat.not_lt,
      decide_eq_true_iff]
  rw [Answer.ofText, htaken, hcomplete]

theorem ofBytes_lineInto {α : Type} (limit : Nat) (x : γ) :
    (.ofBytes (lineInto limit x) : Answer α) =
      .written ((text x ++ "\n").toUTF8.data.toList.take limit)
        (if limit < (text x ++ "\n").utf8ByteSize then some .noRoom else none) := by
  obtain ⟨htaken, hstopped⟩ := lineInto_spec limit x
  simp only [Answer.ofBytes, htaken, hstopped]

end Display

/-! ## Lists and tuples -/

/-- The longest start of `whole`, in whole characters, of at most `limit` bytes. -/
structure LongestStart (limit : Nat) (whole taken : String) : Prop where
  start : taken.toList <+: whole.toList
  fits : taken.utf8ByteSize ≤ limit
  longest : ∀ other : String, other.toList <+: whole.toList → other.utf8ByteSize ≤ limit →
    other.toList <+: taken.toList

theorem longestStart_fitting (limit : Nat) (whole : String) :
    LongestStart limit whole
      (String.ofList (Sink.fitting Char.utf8Size limit whole.toList)) := by
  refine ⟨?_, ?_, ?_⟩
  · rw [String.toList_ofList]
    exact Sink.fitting_isPrefix Char.utf8Size limit whole.toList
  · rw [← Display.total_utf8Size, String.toList_ofList]
    exact Sink.total_fitting_le Char.utf8Size limit whole.toList
  · intro other hstart hfits
    rw [← Display.total_utf8Size] at hfits
    rw [String.toList_ofList]
    exact Sink.isPrefix_fitting Char.utf8Size hstart hfits

variable {α : Type}

/-- Asked to show `whole` within a limit, the container shows the longest start that fits, says
whether that was all, and shows no less within a higher limit. -/
structure ShownWithin (whole : String) (answer : Nat → Except Failure (Answer α)) : Prop where
  taken : ∀ limit, ∃ taken complete, answer limit = .ok (.shown taken complete) ∧
    LongestStart limit whole taken ∧ (complete = true ↔ whole.utf8ByteSize ≤ limit)
  grows : ∀ m n taken taken' complete complete', m ≤ n →
    answer m = .ok (.shown taken complete) → answer n = .ok (.shown taken' complete') →
    taken.toList <+: taken'.toList

/-- Asked to write `whole` within a limit, the container writes as many of the bytes as the limit
allows, fails for want of room exactly if there are more, and writes no less within a higher
limit. -/
structure WrittenWithin (whole : String) (answer : Nat → Except Failure (Answer α)) : Prop where
  taken : ∀ limit, answer limit = .ok (.written (whole.toUTF8.data.toList.take limit)
    (if limit < whole.utf8ByteSize then some .noRoom else none))
  grows : ∀ m n taken taken' error error', m ≤ n →
    answer m = .ok (.written taken error) → answer n = .ok (.written taken' error') →
    taken <+: taken'

theorem shownWithin_into {γ : Type} [Display γ] (x : γ) :
    ShownWithin (Display.text x)
      (fun limit => .ok (.ofText (Display.into limit x) : Answer α)) := by
  constructor
  · intro limit
    rw [Display.ofText_into]
    exact ⟨_, _, rfl, longestStart_fitting limit (Display.text x), decide_eq_true_iff⟩
  · intro m n taken taken' complete complete' hmn htaken htaken'
    rw [Display.ofText_into] at htaken htaken'
    cases htaken
    cases htaken'
    rw [String.toList_ofList, String.toList_ofList]
    exact Sink.fitting_of_le Char.utf8Size hmn (Display.text x).toList

theorem writtenWithin_lineInto {γ : Type} [Display γ] (x : γ) :
    WrittenWithin (Display.text x ++ "\n")
      (fun limit => .ok (.ofBytes (Display.lineInto limit x) : Answer α)) := by
  constructor
  · exact fun limit => congrArg Except.ok (Display.ofBytes_lineInto limit x)
  · intro m n taken taken' error error' hmn htaken htaken'
    rw [Display.ofBytes_lineInto] at htaken htaken'
    cases htaken
    cases htaken'
    exact List.take_prefix_take_left hmn

/-- A list or a tuple of elements of any kind, shown within any limit, gives the longest start of
its text that fits, and a list written within any limit gives the first bytes of its line; both say
whether that was all, and both grow with the limit. The text stands in brackets around the texts of
the elements, also inside a nested value. A sink that forgets what it refused is left with the same,
as nothing is written after a refusal. -/
theorem bounded_rendering [Element α] :
    (∀ l : LinkedList α,
      Display.text l = "[" ++ ", ".intercalate (l.toList.map Display.text) ++ "]" ∧
      ShownWithin (Display.text l)
        (fun limit => ((Vessel.list l).act (.formatInto limit)).value.answer) ∧
      WrittenWithin (Display.text l ++ "\n")
        (fun limit => ((Vessel.list l).act (.writeLineInto limit)).value.answer)) ∧
    (∀ t : Tuple α,
      Display.text t = "(" ++ ", ".intercalate (t.toList.map Display.text) ++ ")" ∧
      ShownWithin (Display.text t)
        (fun limit => ((Vessel.tuple t).act (.formatInto limit)).value.answer)) ∧
    (∀ l : LinkedList Nested, Display.text (Nested.list l) = Display.text l) ∧
    (∀ t : Tuple Nested, Display.text (Nested.tuple t) = Display.text t) ∧
    ∀ (γ : Type) [Display γ] (x : γ) (limit : Nat),
      Display.into limit x = Sink.writeUntilRefused Char.utf8Size ⟨limit, #[], false⟩
        ((Display.pieces x).map String.toList) ∧
      Display.lineInto limit x = Sink.writeUntilRefused (fun _ => 1) ⟨limit, #[], false⟩
        ((Display.line x).map Display.utf8) := by
  refine ⟨fun l => ?_, fun t => ?_, Nested.text_list, Nested.text_tuple, fun γ _ x limit => ?_⟩
  · exact ⟨Display.text_list l, shownWithin_into l, writtenWithin_lineInto l⟩
  · exact ⟨Display.text_tuple t, shownWithin_into t⟩
  · exact ⟨Sink.writeAll_eq_writeUntilRefused _ rfl _, Sink.writeAll_eq_writeUntilRefused _ rfl _⟩

/-- Two bytes are room for the bracket, but only for half of the letter behind it. -/
example : (Display.into 2 (LinkedList.ofList ["é"]).value).taken.toList = ['['] ∧
    (Display.lineInto 2 (LinkedList.ofList ["é"]).value).taken.toList = [0x5b, 0xc3] := by
  decide

end SeqStore
