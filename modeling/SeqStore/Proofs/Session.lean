import SeqStore.Proofs.LinkedList
import SeqStore.Session.Basic

/-!
The names of a session: what is found under them after a container was stored or dropped.
-/

namespace SeqStore

namespace Session

variable {α : Type}

private theorem lookup_cons_ne {name n : String} (h : name ≠ n) (v : Vessel α)
    (rest : List (String × Vessel α)) : ((n, v) :: rest).lookup name = rest.lookup name := by
  rw [List.lookup_cons, beq_false_of_ne h]

private theorem lookup_assign (name other : String) (v : Vessel α)
    (vars : List (String × Vessel α)) :
    (assign name v vars).lookup other =
      if other = name then some v else vars.lookup other := by
  induction vars with
  | nil =>
    by_cases h : other = name
    · simp [assign, h]
    · simp [assign, h, lookup_cons_ne h]
  | cons entry rest ih =>
    obtain ⟨n, w⟩ := entry
    by_cases hn : name = n
    · subst hn
      by_cases h : other = name
      · simp [assign, h]
      · simp [assign, h, lookup_cons_ne h]
    · by_cases ho : other = n
      · subst ho
        simp [assign, hn, Ne.symm hn]
      · simp [assign, hn, lookup_cons_ne ho, ih]

theorem find?_put (s : Session α) (name other : String) (v : Vessel α) :
    (s.put name v).find? other = if other = name then some v else s.find? other :=
  lookup_assign name other v s.vars

private theorem lookup_filter (name other : String) (vars : List (String × Vessel α)) :
    (vars.filter fun (n, _) => !(name == n)).lookup other =
      if other = name then none else vars.lookup other := by
  induction vars with
  | nil => simp
  | cons entry rest ih =>
    obtain ⟨n, w⟩ := entry
    by_cases hn : name = n
    · subst hn
      by_cases h : other = name
      · subst h
        simp only [↓reduceIte] at ih ⊢
        simp [ih]
      · simpa [h, lookup_cons_ne h] using ih
    · by_cases ho : other = n
      · subst ho
        simp [hn, Ne.symm hn]
      · simpa [hn, lookup_cons_ne ho] using ih

theorem find?_erase (s : Session α) (name other : String) :
    (s.erase name).find? other = if other = name then none else s.find? other :=
  lookup_filter name other s.vars

private theorem assign_lookup {name : String} {v : Vessel α} {vars : List (String × Vessel α)}
    (h : vars.lookup name = some v) : assign name v vars = vars := by
  induction vars with
  | nil => simp at h
  | cons entry rest ih =>
    obtain ⟨n, w⟩ := entry
    by_cases hn : name = n
    · subst hn
      simp only [List.lookup_cons, BEq.rfl, Option.some.injEq] at h
      simp [assign, h]
    · rw [lookup_cons_ne hn] at h
      simp [assign, hn, ih h]

/-- To store what is already there changes nothing, not even the order of the names. -/
theorem put_self {s : Session α} {name : String} {v : Vessel α} (h : s.find? name = some v) :
    s.put name v = s :=
  congrArg Session.mk (assign_lookup h)

/-- A copy of the elements of a container never breaks off. -/
theorem extendBy_answer (s : Session α) (name : String) (l : LinkedList α) (xs : List α) :
    (s.extendBy name l xs).value.answer = .ok .done := by
  simp only [extendBy, Traced.value_bind, Traced.value_pure, LinkedList.extend_eq,
    Source.failure_ofList]
  rfl

end Session

end SeqStore
