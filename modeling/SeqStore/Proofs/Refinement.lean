import Mathlib.Data.List.Forall2
import SeqStore.Proofs.Decode
import SeqStore.Proofs.JsonText
import SeqStore.Proofs.Plain
import SeqStore.Proofs.Session

/-!
Sessions refine plain sessions. A list of a session stands for the sequence it holds; every
command keeps that so, and comes to what it comes to on the sequences. `refines_plain` says
it of every run from the empty session.
-/

namespace SeqStore

variable {α : Type}

/-! ## Texts of lists -/

theorem Encode.each_eq_mapM [Encode α] (xs : List α) : each xs = xs.mapM encode := by
  induction xs with
  | nil => rfl
  | cons x xs ih => rw [each, ih, List.mapM_cons]

namespace Sequence

section

variable [Display α] (l : LinkedList α)

theorem text_toList : text l.toList = Display.text l := (Display.text_list l).symm

theorem shown_toList (limit : Nat) : shown limit l.toList = .ofText (Display.into limit l) := by
  rw [shown, text_toList, Display.ofText_into]

theorem line_toList : line l.toList = String.join (Display.line l) := by
  rw [line, text_toList, Display.join_line]

theorem lineBytes_toList : lineBytes l.toList = Display.lineBytes l := by
  rw [lineBytes, line, text_toList, Display.lineBytes, Display.flatMap_line]

theorem written_toList (limit : Nat) :
    written limit l.toList = .ofBytes (Display.lineInto limit l) := by
  rw [written, lineBytes, line, text_toList, Display.ofBytes_lineInto]
  rfl

end

theorem debugText_toList [Debug α] (style : Text.Style) (l : LinkedList α) :
    debugText style l.toList = Debug.debug style 0 l := by
  have hindent : Debug.indent 0 = "" ∧ Debug.indent (0 + 1) = "    " := by decide
  have hopen : "[" ++ "\n" = "[\n" := by decide
  change _ = Debug.sequence style 0 (l.toList.map (Debug.debug style 1))
  rw [Debug.sequence, debugText, Debug.lines, hindent.1, hindent.2, String.append_empty,
    ← String.append_assoc, hopen]
  cases l.toList <;> cases style.pretty <;> simp

theorem formatted_toList [Display α] [Debug α] (l : LinkedList α) (spec : Text.Spec) :
    formatted l.toList spec = Vessel.formatted l spec := by
  cases spec with
  | display => exact text_toList l
  | debug style => exact debugText_toList style l

theorem json_toList [Encode α] (l : LinkedList α) : json l.toList = Vessel.encoded l := by
  have htext : Encode.toText l = Json.render <$> Json.array <$> l.toList.mapM Encode.encode := by
    rw [← Encode.each_eq_mapM]
    rfl
  rw [Vessel.encoded, htext, json]
  cases l.toList.mapM Encode.encode with
  | error error => rfl
  | ok values =>
    change _ = Except.ok (Answer.text (Json.array values).render)
    rw [Json.render_array]

end Sequence

/-! ## Lists and sequences -/

section

variable [Element α] {l : LinkedList α} {xs : List α}

/-- The actions of the shared interface, on either route. -/
private theorem actOnList_request (h : l.Holds xs) (route : Route) (request : Request α)
    (hplain : actOnSequence xs (request.on route) = request.plain xs)
    (short : (actOnSequence xs (request.on route)).after.length < UInt64.size) :
    ∃ l' : LinkedList α, l'.Holds (actOnSequence xs (request.on route)).after ∧
      (Vessel.actOnList l (request.on route)).value =
        ⟨(actOnSequence xs (request.on route)).answer, .list l'⟩ := by
  rw [hplain] at short ⊢
  obtain ⟨hanswer, hafter⟩ := request.list_step h short
  refine ⟨_, hafter, ?_⟩
  rw [Request.actOnList_on, ← hanswer]
  rfl

/-- An action on a list that holds `xs` comes to what it comes to on `xs`. -/
theorem actOnList_step (h : l.Holds xs) (action : Action α)
    (short : (actOnSequence xs action).after.length < UInt64.size) :
    ∃ l' : LinkedList α, l'.Holds (actOnSequence xs action).after ∧
      (Vessel.actOnList l action).value = ⟨(actOnSequence xs action).answer, .list l'⟩ := by
  cases action with
  | len route => exact actOnList_request h route .len rfl short
  | isEmpty route => exact actOnList_request h route .isEmpty rfl short
  | index route x => exact actOnList_request h route (.index x) rfl short
  | contains route x => exact actOnList_request h route (.contains x) rfl short
  | get route idx => exact actOnList_request h route (.get idx) rfl short
  | append route x => exact actOnList_request h route (.append x) rfl short
  | remove route x => exact actOnList_request h route (.remove x) rfl short
  | set route idx x => exact actOnList_request h route (.set idx x) rfl short
  | getOrAbort idx =>
    refine ⟨l, h, ?_⟩
    rw [actOnSequence, ← Request.list_get h idx]
    rfl
  | setOrAbort idx x =>
    refine ⟨_, h.set idx x, ?_⟩
    rw [actOnSequence, ← Request.list_set h idx x]
    rfl
  | clear => exact ⟨.empty, LinkedList.holds_empty, rfl⟩
  | extend source =>
    refine ⟨_, h.extend source (by simpa [actOnSequence] using short), ?_⟩
    rw [actOnSequence, Vessel.actOnList]
    simp only [Traced.value_bind, Traced.value_pure, LinkedList.extend_eq]
    cases source.failure <;> rfl
  | format spec | formatInto limit | writeLine | writeLineInto limit | print | toJson =>
    obtain rfl := h.elements
    refine ⟨l, h, ?_⟩
    simp only [actOnSequence, Sequence.formatted_toList, Sequence.shown_toList,
      Sequence.lineBytes_toList, Sequence.written_toList, Sequence.line_toList,
      Sequence.json_toList]
    rfl
  | copyOut | view | release | feed =>
    obtain rfl := h.elements
    exact ⟨l, h, rfl⟩

end

/-! ## Containers and contents -/

/-- A list stands for the sequence it holds, any other container for itself. -/
inductive Vessel.Represents : Vessel α → Content α → Prop
  | list {l : LinkedList α} {xs : List α} (h : l.Holds xs) : Represents (.list l) (.sequence xs)
  | tuple (t : Tuple α) : Represents (.tuple t) (.other (.tuple t))
  | gapped (g : Gapped α) : Represents (.gapped g) (.other (.gapped g))
  | buffer (b : Buffer α) : Represents (.buffer b) (.other (.buffer b))

/-- What a recipe comes to on both sides: containers that go together, or one failure. -/
def BuildsAlike (real : Except Failure (Vessel α)) (plain : Except Failure (Content α)) : Prop :=
  (∃ v c, real = .ok v ∧ plain = .ok c ∧ (c.Short → v.Represents c)) ∨
    ∃ failure, real = .error failure ∧ plain = .error failure

private theorem buildsAlike_list {real : Except Failure (Vessel α)}
    {plain : Except Failure (Content α)} (xs : List α)
    (hreal : real = .ok (.list (LinkedList.ofList xs).value))
    (hplain : plain = .ok (.sequence xs)) : BuildsAlike real plain :=
  .inl ⟨_, _, hreal, hplain, fun short => .list (LinkedList.holds_ofList xs short)⟩

private theorem buildsAlike_other {real : Except Failure (Vessel α)}
    (h : ∀ v, real = .ok v → v.Represents (.other v)) :
    BuildsAlike real (real.map .other) := by
  cases real with
  | ok v => exact .inl ⟨v, .other v, rfl, rfl, fun _ => h v rfl⟩
  | error failure => exact .inr ⟨failure, rfl, rfl⟩

section

variable [Element α]

/-- A tuple stays one under every action, or becomes a buffer. -/
theorem actOnTuple_represents (t : Tuple α) (action : Action α) :
    (Vessel.actOnTuple t action).value.after.Represents
      (.other (Vessel.actOnTuple t action).value.after) := by
  cases action with
  | len route | isEmpty route | index route x | contains route x | get route idx
  | append route x | remove route x | set route idx x => cases route <;> exact .tuple t
  | release => exact .buffer ⟨.growable, t.elements⟩
  | feed =>
    rw [Vessel.actOnTuple]
    split <;> exact .tuple t
  | getOrAbort idx | setOrAbort idx x | clear | copyOut | view | extend source | format spec
  | formatInto limit | writeLine | writeLineInto limit | print | toJson => exact .tuple t

theorem Vessel.Represents.act {v : Vessel α} {c : Content α} (h : v.Represents c)
    (action : Action α) (short : (c.act action).after.Short) :
    (v.act action).value.answer = (c.act action).answer ∧
      (v.act action).value.after.Represents (c.act action).after := by
  cases h with
  | list hl =>
    obtain ⟨l', hl', hact⟩ := actOnList_step hl action short
    rw [Vessel.act, hact]
    exact ⟨rfl, .list hl'⟩
  | tuple t => exact ⟨rfl, actOnTuple_represents t action⟩
  | gapped g => exact ⟨rfl, .gapped g⟩
  | buffer b => exact ⟨rfl, by cases action <;> exact .buffer _⟩

/-! ## Recipes -/

theorem Recipe.build_alike (recipe : Recipe α) :
    BuildsAlike recipe.build.value (Content.build recipe) := by
  cases recipe with
  | emptyList => exact .inl ⟨_, _, rfl, rfl, fun _ => .list LinkedList.holds_empty⟩
  | list xs => exact buildsAlike_list xs rfl rfl
  | tuple xs => exact .inl ⟨_, _, rfl, rfl, fun _ => .tuple _⟩
  | gapped places claimed => exact .inl ⟨_, _, rfl, rfl, fun _ => .gapped _⟩
  | buffer storage xs =>
    apply buildsAlike_other
    intro v hv
    cases h : ((Buffer.empty storage).appendAll xs).value.answer <;>
      simp [Recipe.build, h] at hv
    subst hv
    exact .buffer _
  | json kind v =>
    cases kind with
    | list =>
      cases h : (Decode.sequence v : Decoder (List α)).run.value with
      | error error =>
        refine .inr ⟨.decode error, ?_, ?_⟩ <;>
          simp [Content.build, Recipe.build, Decode.list_value, h, Except.map]
      | ok xs =>
        apply buildsAlike_list xs <;>
          simp [Content.build, Recipe.build, Decode.list_value, h, Except.map]
    | tuple =>
      apply buildsAlike_other
      intro w hw
      cases h : (Decode.decode v : Decoder (Tuple α)).run.value <;>
        simp [Recipe.build, h] at hw
      subst hw
      exact .tuple _
  | text kind s =>
    cases kind with
    | list =>
      cases h : (Decode.ofText (pure : List α → Traced (List α)) s).value with
      | none =>
        refine .inr ⟨.unreadable, ?_, ?_⟩ <;>
          simp [Content.build, Recipe.build, Decode.listOfText,
            Decode.ofText_value LinkedList.ofList, h]
      | some xs =>
        apply buildsAlike_list xs <;>
          simp [Content.build, Recipe.build, Decode.listOfText,
            Decode.ofText_value LinkedList.ofList, h]
    | tuple =>
      apply buildsAlike_other
      intro w hw
      cases h : (Decode.tupleOfText s : Traced (Option (Tuple α))).value <;>
        simp [Recipe.build, h] at hw
      subst hw
      exact .tuple _

end

/-! ## Sessions -/

namespace Session

/-- Every name stands for what the plain session says. -/
def Represents (s : Session α) (p : Store α) : Prop :=
  ∀ name, Option.Rel Vessel.Represents (s.find? name) (p name)

theorem represents_empty : (empty : Session α).Represents Store.empty := fun _ => .none

theorem Represents.put {s : Session α} {p : Store α} (h : s.Represents p) (name : String)
    {v : Vessel α} {c : Content α} (hv : v.Represents c) :
    (s.put name v).Represents (p.put name c) := by
  intro other
  rw [find?_put, Store.put, Function.update_apply]
  by_cases ho : other = name
  · simpa [ho] using Option.Rel.some hv
  · simpa [ho] using h other

theorem Represents.erase {s : Session α} {p : Store α} (h : s.Represents p) (name : String) :
    (s.erase name).Represents (p.erase name) := by
  intro other
  rw [find?_erase, Store.erase, Function.update_apply]
  by_cases ho : other = name
  · simp [ho]
  · simpa [ho] using h other

theorem short_of_put {p : Store α} {name : String} {c : Content α}
    (h : (p.put name c).Short) : c.Short := h name c (by simp [Store.put])

/-- A command comes to the same on a session and on sequences. -/
structure Matches (real : Traced (Change Failure (Answer α) (Session α)))
    (plain : Change Failure (Answer α) (Store α)) : Prop where
  answer : real.value.answer = plain.answer
  after : real.value.after.Represents plain.after

variable {s : Session α} {p : Store α}

theorem extendBy_matches (h : s.Represents p) (name : String) {l : LinkedList α}
    {xs ys : List α} (hl : l.Holds xs) (short : xs.length + ys.length < UInt64.size) :
    Matches (s.extendBy name l ys) ⟨.ok .done, p.put name (.sequence (xs ++ ys))⟩ := by
  have hafter := hl.extend (.ofList ys) (by simpa using short)
  rw [Source.delivered_ofList] at hafter
  exact ⟨extendBy_answer s name l ys, h.put name (.list hafter)⟩

variable [Element α]

theorem make_matches (h : s.Represents p) (name : String) (recipe : Recipe α)
    (short : (p.exec name (.make recipe)).after.Short) :
    Matches (s.exec name (.make recipe)) (p.exec name (.make recipe)) := by
  rcases recipe.build_alike with ⟨v, c, hv, hc, hrep⟩ | ⟨failure, hv, hc⟩
  · simp only [Store.exec, hc] at short ⊢
    constructor <;> simp only [exec, Traced.value_bind, hv]
    · rfl
    · exact h.put name (hrep (short_of_put short))
  · simp only [Store.exec, hc]
    constructor <;> simp only [exec, Traced.value_bind, hv]
    · rfl
    · exact h

theorem drop_matches (h : s.Represents p) (name : String) :
    Matches (s.exec name .drop) (p.exec name .drop) := by
  have hname := h name
  refine ⟨?_, h.erase name⟩
  simp only [exec, Store.exec, Traced.value_pure]
  generalize s.find? name = v, p name = c at hname ⊢
  cases hname <;> rfl

theorem act_matches (h : s.Represents p) (name : String) (action : Action α)
    (short : (p.exec name (.act action)).after.Short) :
    Matches (s.exec name (.act action)) (p.exec name (.act action)) := by
  have hname := h name
  simp only [exec, Store.exec] at short ⊢
  generalize s.find? name = v, p name = c at hname short ⊢
  cases hname with
  | none => exact ⟨rfl, h⟩
  | some hv =>
    obtain ⟨hanswer, hafter⟩ := hv.act action (short_of_put short)
    exact ⟨hanswer, h.put name hafter⟩

theorem clone_matches (h : s.Represents p) (name dst : String) :
    Matches (s.exec name (.clone dst)) (p.exec name (.clone dst)) := by
  have hname := h name
  simp only [exec, Store.exec, LinkedList.clone_id]
  generalize s.find? name = v, p name = c at hname ⊢
  rcases hname with (hl | t | g | b) | _
  · exact ⟨rfl, h.put dst (.list hl)⟩
  · exact ⟨rfl, h.put dst (.tuple t)⟩
  all_goals exact ⟨rfl, h⟩

theorem take_matches (h : s.Represents p) (name dst : String) :
    Matches (s.exec name (.take dst)) (p.exec name (.take dst)) := by
  have hname := h name
  simp only [exec, Store.exec]
  generalize s.find? name = v, p name = c at hname ⊢
  rcases hname with (hl | t | g | b) | _
  · exact ⟨rfl, (h.put name (.list LinkedList.holds_empty)).put dst (.list hl)⟩
  all_goals exact ⟨rfl, h⟩

theorem eq_matches (h : s.Represents p) (name other : String) :
    Matches (s.exec name (.eq other)) (p.exec name (.eq other)) := by
  have hname := h name
  have hother := h other
  simp only [exec, Store.exec]
  generalize s.find? name = v, p name = c at hname ⊢
  generalize s.find? other = w, p other = d at hother ⊢
  rcases hname with (hl | t | g | b) | _ <;> rcases hother with (hm | t' | g' | b') | _
  · refine ⟨?_, h⟩
    simp only [← hl.beq_eq hm]
    rfl
  all_goals exact ⟨rfl, h⟩

theorem extendFrom_matches (h : s.Represents p) (name other : String)
    (short : (p.exec name (.extendFrom other)).after.Short) :
    Matches (s.exec name (.extendFrom other)) (p.exec name (.extendFrom other)) := by
  have hname := h name
  have hother := h other
  simp only [exec, Store.exec] at short ⊢
  generalize s.find? name = v, p name = c at hname short ⊢
  generalize s.find? other = w, p other = d at hother short ⊢
  rcases hname with (hl | t | g | b) | _ <;> rcases hother with (hm | t' | g' | b') | _
  · obtain rfl := hm.elements
    exact extendBy_matches h name hl (by simpa [Content.Short] using short_of_put short)
  · exact extendBy_matches h name hl (by simpa [Content.Short] using short_of_put short)
  all_goals exact ⟨rfl, h⟩

/-- One command, on a session and on the sequences it stands for. -/
theorem exec_matches (h : s.Represents p) (name : String) (command : Command α)
    (short : (p.exec name command).after.Short) :
    Matches (s.exec name command) (p.exec name command) := by
  cases command with
  | make recipe => exact make_matches h name recipe short
  | drop => exact drop_matches h name
  | act action => exact act_matches h name action short
  | clone dst => exact clone_matches h name dst
  | take dst => exact take_matches h name dst
  | eq other => exact eq_matches h name other
  | extendFrom other => exact extendFrom_matches h name other short

/-- A run, from a session and from the sequences it stands for. -/
theorem run_matches (steps : List (String × Command α)) (h : s.Represents p)
    (short : ∀ step ∈ p.run steps, step.after.Short) :
    List.Forall₂ Matches (s.run steps) (p.run steps) := by
  -- what a step leaves is represented again, whether the command failed or not
  induction steps generalizing s p with
  | nil => exact .nil
  | cons step rest ih =>
    obtain ⟨name, command⟩ := step
    have hstep := exec_matches h name command (short _ (by simp [Store.run]))
    exact .cons hstep (ih hstep.after fun step hmem => short step (by simp [Store.run, hmem]))

/-- Every run of commands, started without any container, comes to the same step by step as
the same run on plain sequences, and after each step every list holds the sequence that it
stands for there. Nothing is asked of the equality of elements. -/
theorem refines_plain (steps : List (String × Command α))
    (short : ∀ step ∈ Store.empty.run steps, step.after.Short) :
    List.Forall₂ Matches (empty.run steps) (Store.empty.run steps) :=
  run_matches steps represents_empty short

/-- A list grows until its source breaks off, loses an element and changes its name. -/
def brokenGrowth : List (String × Command Int64) :=
  [("a", .make (.list [7, 8])), ("a", .act (.extend (.breakAt "boom" 1 [7, 9]))),
    ("a", .act (.remove .own 7)), ("a", .act (.setOrAbort 5 0)), ("a", .take "b")]

theorem refines_plain_brokenGrowth :
    List.Forall₂ Matches (empty.run brokenGrowth) (Store.empty.run brokenGrowth) := by
  apply refines_plain
  intro step hstep
  simp only [brokenGrowth, Store.run, List.mem_cons, List.not_mem_nil, or_false] at hstep
  have hmake : (Store.empty.put "a" (.sequence [(7 : Int64), 8])).Short :=
    Store.short_empty.put (by decide)
  rcases hstep with rfl | rfl | rfl | rfl | rfl
  · exact hmake
  · exact hmake.put (by decide)
  · exact (hmake.put (by decide)).put (by decide)
  · exact ((hmake.put (by decide)).put (by decide)).put (by decide)
  · exact ((((hmake.put (by decide)).put (by decide)).put (by decide)).put (by decide)).put
      (by decide)

end Session

end SeqStore
