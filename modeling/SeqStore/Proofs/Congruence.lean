import SeqStore.Element.Caseless
import SeqStore.Proofs.Trail

/-!
Equal lists stay equal. Where the equality of elements is an equivalence, equal lists cannot be
told apart by what is done with them: the same commands, with equal elements in them, find the
same positions, fail alike and log the same, hand out equal elements and leave equal lists. What is
shown of the elements may differ, as texts may that are equal up to the case of their letters.
-/

namespace SeqStore

variable {α : Type}

/-! ## Sequences -/

/-- As many elements in both sequences, and equal ones in the same places. -/
abbrev Alike [BEq α] (xs ys : List α) : Prop := List.Forall₂ (fun x y => x == y) xs ys

theorem beq_iff_alike [BEq α] (xs ys : List α) : (xs == ys) = true ↔ Alike xs ys := by
  induction xs generalizing ys with
  | nil => cases ys <;> simp
  | cons x xs ih => cases ys <;> simp [ih]

namespace Alike

variable [BEq α] {xs ys : List α} {x y : α}

theorem append {xs' ys' : List α} (h : Alike xs ys) (h' : Alike xs' ys') :
    Alike (xs ++ xs') (ys ++ ys') :=
  List.rel_append h h'

theorem isEmpty_eq (h : Alike xs ys) : xs.isEmpty = ys.isEmpty := by
  cases h <;> rfl

theorem getElem? (h : Alike xs ys) (i : Nat) :
    Option.Rel (fun a b => (a == b) = true) xs[i]? ys[i]? := by
  induction h generalizing i with
  | nil => simp
  | cons hab _ ih =>
    cases i with
    | zero => simpa using hab
    | succ i => simpa using ih i

theorem set (h : Alike xs ys) (i : Nat) (hxy : x == y) : Alike (xs.set i x) (ys.set i y) := by
  induction h generalizing i with
  | nil => exact .nil
  | cons hab hrest ih =>
    cases i with
    | zero => exact .cons hxy hrest
    | succ i => exact .cons hab (ih i)

variable [EquivBEq α]

/-- Here an equivalence is needed: one comparison stands for the other, on both sides. -/
private theorem beq_congr {a b : α} (hab : a == b) (hxy : x == y) : (a == x) = (b == y) := by
  rw [BEq.congr_left hab, BEq.congr_right hxy]

/-- Equal needles are found in the same place. -/
theorem findIdx?_eq (h : Alike xs ys) (hxy : x == y) :
    xs.findIdx? (· == x) = ys.findIdx? (· == y) := by
  induction h with
  | nil => rfl
  | cons hab _ ih => rw [List.findIdx?_cons, List.findIdx?_cons, beq_congr hab hxy, ih]

theorem any_eq (h : Alike xs ys) (hxy : x == y) : xs.any (· == x) = ys.any (· == y) := by
  rw [← List.findIdx?_isSome, ← List.findIdx?_isSome, h.findIdx?_eq hxy]

theorem eraseP (h : Alike xs ys) (hxy : x == y) :
    Alike (xs.eraseP (· == x)) (ys.eraseP (· == y)) := by
  induction h with
  | nil => exact .nil
  | @cons a b as bs hab hrest ih =>
    have hmatch := beq_congr hab hxy
    cases hb : b == y with
    | true => simpa [hmatch, hb] using hrest
    | false => simpa [hmatch, hb] using ⟨hab, ih⟩

/-- Whether two sequences are equal can be asked of equal ones instead. -/
theorem beq_eq {xs' ys' : List α} (h : Alike xs ys) (h' : Alike xs' ys') :
    (xs == xs') = (ys == ys') := by
  induction h generalizing xs' ys' with
  | nil => cases h' <;> rfl
  | cons hab _ ih =>
    cases h' with
    | nil => rfl
    | cons hxy hrest => rw [List.cons_beq_cons, List.cons_beq_cons, beq_congr hab hxy, ih hrest]

end Alike

/-! ## Answers and actions -/

namespace Action

/-- Whether no element comes with the action. -/
def isBare : Action α → Bool
  | .index _ _ | .contains _ _ | .append _ _ | .remove _ _ | .set _ _ _ | .setOrAbort _ _
  | .extend _ => false
  | _ => true

/-- Whether a list answers the action with a text or with bytes made of its elements. -/
def renders : Action α → Bool
  | .format _ | .formatInto _ | .writeLine | .writeLineInto _ | .print | .toJson => true
  | _ => false

end Action

section

variable [BEq α]

/-- The same answer, or one with equal elements. -/
inductive Answer.Alike : Answer α → Answer α → Prop
  | same (answer : Answer α) : Alike answer answer
  | element {x y : α} (h : x == y) : Alike (.element x) (.element y)
  | elements {xs ys : List α} (h : SeqStore.Alike xs ys) : Alike (.elements xs) (.elements ys)

/-- Answers that are alike, or the same failure. -/
inductive EndsAlike : Except Failure (Answer α) → Except Failure (Answer α) → Prop
  | ok {a b : Answer α} (h : a.Alike b) : EndsAlike (.ok a) (.ok b)
  | error (failure : Failure) : EndsAlike (.error failure) (.error failure)

/-- Sources that deliver equal elements and end in the same way. -/
structure Source.Alike (s t : Source α) : Prop where
  delivered : SeqStore.Alike s.delivered t.delivered
  failure : s.failure = t.failure

/-- The same action, with equal elements if any come with it. -/
inductive Action.Alike : Action α → Action α → Prop
  | bare (action : Action α) (h : action.isBare = true) : Alike action action
  | index (route : Route) {x y : α} (h : x == y) : Alike (.index route x) (.index route y)
  | contains (route : Route) {x y : α} (h : x == y) : Alike (.contains route x) (.contains route y)
  | append (route : Route) {x y : α} (h : x == y) : Alike (.append route x) (.append route y)
  | remove (route : Route) {x y : α} (h : x == y) : Alike (.remove route x) (.remove route y)
  | set (route : Route) (idx : UInt64) {x y : α} (h : x == y) :
      Alike (.set route idx x) (.set route idx y)
  | setOrAbort (idx : UInt64) {x y : α} (h : x == y) : Alike (.setOrAbort idx x) (.setOrAbort idx y)
  | extend {s t : Source α} (h : s.Alike t) : Alike (.extend s) (.extend t)

/-- Equal elements that were found, or the same error. -/
inductive FoundAlike : Except AccessError α → Except AccessError α → Prop
  | ok {x y : α} (h : x == y) : FoundAlike (.ok x) (.ok y)
  | error (error : AccessError) : FoundAlike (.error error) (.error error)

theorem FoundAlike.access {r s : Except AccessError α} (h : FoundAlike r s) :
    EndsAlike (Vessel.access r) (Vessel.access s) := by
  cases h with
  | ok h => exact .ok (.element h)
  | error error => exact .error _

theorem FoundAlike.demand {r s : Except AccessError α} (h : FoundAlike r s) :
    EndsAlike (Vessel.demand (r.mapError .position)) (Vessel.demand (s.mapError .position)) := by
  cases h with
  | ok h => exact .ok (.element h)
  | error error => exact .error _

namespace Alike

variable {xs ys : List α} {x y : α}

theorem entry (h : Alike xs ys) (idx : UInt64) :
    FoundAlike (Request.entry xs idx) (Request.entry ys idx) := by
  have hget := h.getElem? idx.toNat
  simp only [Request.entry, h.length_eq]
  generalize xs[idx.toNat]? = a, ys[idx.toNat]? = b at hget ⊢
  cases hget with
  | none => exact .error _
  | some hab => exact .ok hab

theorem notes_get (h : Alike xs ys) (idx : UInt64) :
    (Request.get idx).notes xs = (Request.get idx).notes ys := by
  have hget := h.getElem? idx.toNat
  simp only [Request.notes, h.length_eq]
  generalize xs[idx.toNat]? = a, ys[idx.toNat]? = b at hget ⊢
  cases hget <;> rfl

variable [EquivBEq α]

theorem firstMatch (h : Alike xs ys) (hxy : x == y) :
    FoundAlike (Request.firstMatch xs x) (Request.firstMatch ys y) := by
  simp only [Request.firstMatch, List.find?_eq_bind_findIdx?_getElem?, h.findIdx?_eq hxy]
  cases ys.findIdx? (· == y) with
  | none => exact .error _
  | some pos =>
    have hget := h.getElem? pos
    simp only [Option.bind_some]
    generalize xs[pos]? = a, ys[pos]? = b at hget ⊢
    cases hget with
    | none => exact .error _
    | some hab => exact .ok hab

theorem notes_remove (h : Alike xs ys) (hxy : x == y) :
    (Request.remove x).notes xs = (Request.remove y).notes ys := by
  simp only [Request.notes, h.findIdx?_eq hxy, h.length_eq]

end Alike

end

namespace Session

/-- No list has more elements than its counter can count. -/
def Short (s : Session α) : Prop := ∀ entry ∈ s.vars, entry.2.Short

instance (s : Session α) : Decidable s.Short :=
  inferInstanceAs (Decidable (∀ entry ∈ s.vars, entry.2.Short))

theorem Short.of_put {s : Session α} {name : String} {v : Vessel α} (h : (s.put name v).Short) :
    v.Short := by
  have hfind : (s.put name v).find? name = some v := by simp [find?_put]
  obtain ⟨front, back, hvars, -⟩ := List.lookup_eq_some_iff.mp hfind
  exact h (name, v) (by simp [hvars])

end Session

section

variable [Element α]

/-- Two actions come to the same on two sequences: equal elements are left, the same is noted, and
the answers are alike unless they are made of the elements. -/
structure Mirrors (xs : List α) (a : Action α) (ys : List α) (b : Action α) : Prop where
  after : Alike (actOnSequence xs a).after (actOnSequence ys b).after
  notes : a.notes xs = b.notes ys
  answer : a.renders = false → EndsAlike (actOnSequence xs a).answer (actOnSequence ys b).answer

variable {xs ys : List α}

private theorem mirrors_bare (h : Alike xs ys) (action : Action α) (hbare : action.isBare = true) :
    Mirrors xs action ys action := by
  cases action with
  | len route =>
    refine ⟨h, rfl, fun _ => ?_⟩
    simp only [actOnSequence, Request.plain, h.length_eq]
    exact .ok (.same _)
  | isEmpty route =>
    refine ⟨h, rfl, fun _ => ?_⟩
    simp only [actOnSequence, Request.plain, h.isEmpty_eq]
    exact .ok (.same _)
  | get route idx => exact ⟨h, h.notes_get idx, fun _ => (h.entry idx).access⟩
  | getOrAbort idx => exact ⟨h, h.notes_get idx, fun _ => (h.entry idx).demand⟩
  | clear => exact ⟨.nil, by simp only [Action.notes, h.length_eq], fun _ => .ok (.same _)⟩
  | copyOut => exact ⟨h, rfl, fun _ => .ok (.elements h)⟩
  | view | release | feed => exact ⟨h, rfl, fun _ => .error _⟩
  | format spec | formatInto limit | writeLine | writeLineInto limit | print | toJson =>
    exact ⟨h, rfl, fun plain => by cases plain⟩
  | index route x | contains route x | append route x | remove route x | set route idx x
  | setOrAbort idx x | extend source => cases hbare

theorem Action.Alike.mirrors [EquivBEq α] {a b : Action α} (hab : a.Alike b)
    (h : SeqStore.Alike xs ys) : Mirrors xs a ys b := by
  cases hab with
  | bare _ hbare => exact mirrors_bare h a hbare
  | index route hxy =>
    refine ⟨h, rfl, fun _ => ?_⟩
    simp only [actOnSequence, Request.plain, h.findIdx?_eq hxy]
    exact .ok (.same _)
  | contains route hxy =>
    refine ⟨h, rfl, fun _ => ?_⟩
    simp only [actOnSequence, Request.plain, h.any_eq hxy]
    exact .ok (.same _)
  | append route hxy =>
    refine ⟨h.append (.cons hxy .nil), ?_, fun _ => .ok (.same _)⟩
    simp only [Action.notes, Request.notes, h.length_eq]
  | remove route hxy =>
    exact ⟨h.eraseP hxy, h.notes_remove hxy, fun _ => (h.firstMatch hxy).access⟩
  | set route idx hxy =>
    exact ⟨h.set idx.toNat hxy, h.notes_get idx, fun _ => (h.entry idx).access⟩
  | setOrAbort idx hxy =>
    exact ⟨h.set idx.toNat hxy, h.notes_get idx, fun _ => (h.entry idx).demand⟩
  | extend hsource =>
    refine ⟨h.append hsource.delivered, ?_, fun _ => ?_⟩
    · simp only [Action.notes, hsource.failure, hsource.delivered.length_eq, h.length_eq]
    · simp only [actOnSequence, hsource.failure]
      split
      · exact .error _
      · exact .ok (.same _)

/-! ## Lists -/

/-- Equal lists that operations can build. -/
inductive Vessel.Equal : Vessel α → Vessel α → Prop
  | list {l m : LinkedList α} (hl : l.Reachable) (hm : m.Reachable) (h : l == m) :
      Equal (.list l) (.list m)

theorem Vessel.equal_of_holds {l m : LinkedList α} (hl : l.Holds xs) (hm : m.Holds ys)
    (h : Alike xs ys) : Equal (.list l) (.list m) := by
  refine .list hl.reachable hm.reachable ?_
  rw [hl.beq_eq hm, beq_iff_alike]
  exact h

theorem LinkedList.Reachable.alike {l m : LinkedList α} (hl : l.Reachable) (hm : m.Reachable)
    (h : l == m) : Alike l.toList m.toList := by
  rw [hl.holds.beq_eq hm.holds, beq_iff_alike] at h
  exact h

/-! ## Sessions -/

/-- The same command, with equal elements if any come with it. Lists are not made anew. -/
inductive Command.Alike : Command α → Command α → Prop
  | act {a b : Action α} (h : a.Alike b) : Alike (.act a) (.act b)
  | drop : Alike .drop .drop
  | clone (dst : String) : Alike (.clone dst) (.clone dst)
  | take (dst : String) : Alike (.take dst) (.take dst)
  | eq (other : String) : Alike (.eq other) (.eq other)
  | extendFrom (other : String) : Alike (.extendFrom other) (.extendFrom other)

def Command.renders : Command α → Bool
  | .act action => action.renders
  | _ => false

namespace Session

/-- The same names, with equal lists under them. -/
def Equal (s t : Session α) : Prop :=
  ∀ name, Option.Rel Vessel.Equal (s.find? name) (t.find? name)

/-- A command comes to the same in two sessions: the lists are equal again, the log is the same,
and the answers are alike unless they are made of the elements. -/
structure Echoes (command : Command α) (one other : Traced (Change Failure (Answer α) (Session α))) :
    Prop where
  lists : one.value.after.Equal other.value.after
  log : one.log = other.log
  answer : command.renders = false → EndsAlike one.value.answer other.value.answer

theorem equal_empty : (empty : Session α).Equal empty := fun _ => .none

variable {s t : Session α}

theorem Equal.put (h : s.Equal t) (name : String) {v w : Vessel α} (hvw : v.Equal w) :
    (s.put name v).Equal (t.put name w) := by
  intro other
  rw [find?_put, find?_put]
  by_cases ho : other = name
  · simpa [ho] using Option.Rel.some hvw
  · simpa [ho] using h other

theorem Equal.erase (h : s.Equal t) (name : String) : (s.erase name).Equal (t.erase name) := by
  intro other
  rw [find?_erase, find?_erase]
  by_cases ho : other = name
  · simp [ho]
  · simpa [ho] using h other

/-- Extending by a copy of other elements is extending from a source of them. -/
theorem extendBy_eq_act (s : Session α) (name : String) (l : LinkedList α) (xs : List α) :
    s.extendBy name l xs = do
      let change ← (Vessel.list l).act (.extend (.ofList xs))
      return ⟨change.answer, s.put name change.after⟩ := by
  simp [extendBy, Vessel.act, Vessel.actOnList]

variable [EquivBEq α]

/-- An action on equal lists, and what it leaves in their place. -/
private theorem act_list_echoes (h : s.Equal t) (name : String) {l m : LinkedList α}
    (hl : l.Reachable) (hm : m.Reachable) (hlm : l == m) {a b : Action α} (hab : a.Alike b)
    (short : (s.put name ((Vessel.list l).act a).value.after).Short) :
    Echoes (.act a)
      (do
        let change ← (Vessel.list l).act a
        return ⟨change.answer, s.put name change.after⟩)
      (do
        let change ← (Vessel.list m).act b
        return ⟨change.answer, t.put name change.after⟩) := by
  have hmirrors := hab.mirrors (hl.alike hm hlm)
  obtain ⟨_, hdone, -⟩ := Vessel.deed_list hl.holds a short.of_put
  obtain ⟨l', hl', hact⟩ := actOnList_step hl.holds a hdone.length_lt
  -- the other list grows and shrinks in step, so it is short enough as well
  obtain ⟨m', hm', hact'⟩ := actOnList_step hm.holds b (by
    rw [← hmirrors.after.length_eq]
    exact hdone.length_lt)
  refine ⟨?_, ?_, fun plain => ?_⟩
  · simp only [Traced.value_bind, Traced.value_pure, Vessel.act, hact, hact']
    exact h.put name (Vessel.equal_of_holds hl' hm' hmirrors.after)
  · simp only [Traced.log_bind, Traced.log_pure, Vessel.act, actOnList_log hl.holds,
      actOnList_log hm.holds, hmirrors.notes]
  · simp only [Traced.value_bind, Traced.value_pure, Vessel.act, hact, hact']
    exact hmirrors.answer plain

private theorem act_echoes (h : s.Equal t) (name : String) {a b : Action α} (hab : a.Alike b)
    (short : (s.exec name (.act a)).value.after.Short) :
    Echoes (.act a) (s.exec name (.act a)) (t.exec name (.act b)) := by
  have hname := h name
  simp only [exec] at short ⊢
  generalize s.find? name = v, t.find? name = w at hname short ⊢
  cases hname with
  | none => exact ⟨h, rfl, fun _ => .error _⟩
  | some hvw =>
    obtain ⟨hl, hm, hlm⟩ := hvw
    exact act_list_echoes h name hl hm hlm hab short

private theorem extendFrom_echoes (h : s.Equal t) (name other : String)
    (short : (s.exec name (.extendFrom other)).value.after.Short) :
    Echoes (.extendFrom other) (s.exec name (.extendFrom other))
      (t.exec name (.extendFrom other)) := by
  have hname := h name
  have hother := h other
  simp only [exec] at short ⊢
  generalize s.find? name = v, t.find? name = w at hname short ⊢
  generalize s.find? other = v', t.find? other = w' at hother short ⊢
  rcases hname with ⟨hl, hm, hlm⟩ | _ <;> rcases hother with ⟨hl', hm', hlm'⟩ | _
  · have hsource : Source.Alike (.ofList _) (.ofList _) :=
      ⟨by simpa using hl'.alike hm' hlm', by simp⟩
    simp only [extendBy_eq_act] at short ⊢
    obtain ⟨hlists, hlog, hanswer⟩ := act_list_echoes h name hl hm hlm (.extend hsource) short
    exact ⟨hlists, hlog, fun _ => hanswer rfl⟩
  all_goals exact ⟨h, rfl, fun _ => .error _⟩

/-- One command, with equal elements, in two sessions of equal lists. -/
theorem exec_echoes (h : s.Equal t) (name : String) {c d : Command α} (hcd : c.Alike d)
    (short : (s.exec name c).value.after.Short) :
    Echoes c (s.exec name c) (t.exec name d) := by
  have hname := h name
  cases hcd with
  | act hab => exact act_echoes h name hab short
  | extendFrom other => exact extendFrom_echoes h name other short
  | drop =>
    refine ⟨h.erase name, rfl, fun _ => ?_⟩
    simp only [exec, Traced.value_pure]
    generalize s.find? name = v, t.find? name = w at hname ⊢
    cases hname <;> exact .ok (.same _)
  | clone dst =>
    simp only [exec, LinkedList.clone_id]
    generalize s.find? name = v, t.find? name = w at hname ⊢
    rcases hname with ⟨hl, hm, hlm⟩ | _
    · exact ⟨h.put dst (.list hl hm hlm), rfl, fun _ => .ok (.same _)⟩
    · exact ⟨h, rfl, fun _ => .error _⟩
  | take dst =>
    simp only [exec]
    generalize s.find? name = v, t.find? name = w at hname ⊢
    rcases hname with ⟨hl, hm, hlm⟩ | _
    · have hempty : Vessel.Equal (.list (.empty : LinkedList α)) (.list .empty) :=
        .list .empty .empty rfl
      exact ⟨(h.put name hempty).put dst (.list hl hm hlm), rfl, fun _ => .ok (.same _)⟩
    · exact ⟨h, rfl, fun _ => .error _⟩
  | eq other =>
    have hother := h other
    simp only [exec]
    generalize s.find? name = v, t.find? name = w at hname ⊢
    generalize s.find? other = v', t.find? other = w' at hother ⊢
    rcases hname with ⟨hl, hm, hlm⟩ | _ <;> rcases hother with ⟨hl', hm', hlm'⟩ | _
    · refine ⟨h, rfl, fun _ => ?_⟩
      simp only [Traced.value_pure, hl.holds.beq_eq hl'.holds, hm.holds.beq_eq hm'.holds,
        (hl.alike hm hlm).beq_eq (hl'.alike hm' hlm')]
      exact .ok (.same _)
    all_goals exact ⟨h, rfl, fun _ => .error _⟩

/-- Two sessions with equal lists under the same names, and the same commands for both with equal
elements in them: after every command the lists are equal again, the log is the same, and so is
the answer, but for the elements in it, which are equal. Only what is made of the elements, such as
a text that shows them, may differ. -/
theorem equal_lists_stay_equal (s t : Session α) (equal : s.Equal t)
    (steps others : List (String × Command α))
    (alike : List.Forall₂ (fun step other => step.1 = other.1 ∧ step.2.Alike other.2) steps others)
    (short : ∀ done ∈ s.run steps, done.value.after.Short) :
    List.Forall₂ (fun step done => Echoes step.2 done.1 done.2) steps
      ((s.run steps).zip (t.run others)) := by
  induction alike generalizing s t with
  | nil => exact .nil
  | @cons step other steps others hstep _ ih =>
    obtain ⟨name, command⟩ := step
    obtain ⟨name', command'⟩ := other
    obtain ⟨rfl, hcommand⟩ := hstep
    have hechoes := exec_echoes equal name hcommand (short _ (by simp [run]))
    exact .cons hechoes (ih _ _ hechoes.lists fun done hdone => short done (by simp [run, hdone]))

end Session

end

/-! ## Texts up to the case of their letters -/

/-- A list of texts grows, is copied and loses an element, and its copy grows until the source
breaks off. -/
def copiedTexts (x y z : String) : List (String × Command Caseless) :=
  [("a", .act (.append .own ⟨x⟩)), ("a", .clone "b"), ("a", .act (.remove .shared ⟨y⟩)),
    ("b", .act (.setOrAbort 9 ⟨z⟩)), ("b", .act (.extend (.breakAt "boom" 1 [⟨z⟩, ⟨y⟩]))),
    ("a", .eq "b")]

theorem equal_lists_stay_equal_caseless :
    List.Forall₂ (fun step done => Session.Echoes step.2 done.1 done.2)
      (copiedTexts "X" "Ab" "q")
      (((Session.empty.put "a" (.list (LinkedList.ofList [⟨"Ab"⟩, ⟨"c"⟩]).value)).run
          (copiedTexts "X" "Ab" "q")).zip
        ((Session.empty.put "a" (.list (LinkedList.ofList [⟨"aB"⟩, ⟨"C"⟩]).value)).run
          (copiedTexts "x" "AB" "Q"))) := by
  have hab : (⟨"Ab"⟩ : Caseless) == ⟨"aB"⟩ := by rw [Caseless.beq_eq]; decide
  have hc : (⟨"c"⟩ : Caseless) == ⟨"C"⟩ := by rw [Caseless.beq_eq]; decide
  have hx : (⟨"X"⟩ : Caseless) == ⟨"x"⟩ := by rw [Caseless.beq_eq]; decide
  have hy : (⟨"Ab"⟩ : Caseless) == ⟨"AB"⟩ := by rw [Caseless.beq_eq]; decide
  have hz : (⟨"q"⟩ : Caseless) == ⟨"Q"⟩ := by rw [Caseless.beq_eq]; decide
  have hsource : Source.Alike (.breakAt "boom" 1 [(⟨"q"⟩ : Caseless), ⟨"Ab"⟩])
      (.breakAt "boom" 1 [⟨"Q"⟩, ⟨"AB"⟩]) := ⟨.cons hz .nil, rfl⟩
  apply Session.equal_lists_stay_equal
  · have hfound := LinkedList.holds_ofList [(⟨"Ab"⟩ : Caseless), ⟨"c"⟩] (by decide)
    have hfound' := LinkedList.holds_ofList [(⟨"aB"⟩ : Caseless), ⟨"C"⟩] (by decide)
    refine Session.equal_empty.put "a" (.list (.ofList _ (by decide)) (.ofList _ (by decide)) ?_)
    rw [hfound.beq_eq hfound']
    simp [hab, hc]
  · simp only [copiedTexts]
    refine .cons ⟨rfl, .act (.append .own hx)⟩ ?_
    refine .cons ⟨rfl, .clone "b"⟩ ?_
    refine .cons ⟨rfl, .act (.remove .shared hy)⟩ ?_
    refine .cons ⟨rfl, .act (.setOrAbort 9 hz)⟩ ?_
    refine .cons ⟨rfl, .act (.extend hsource)⟩ ?_
    exact .cons ⟨rfl, .eq "b"⟩ .nil
  · decide +kernel

end SeqStore
