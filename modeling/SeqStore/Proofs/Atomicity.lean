import SeqStore.Proofs.Request
import SeqStore.Proofs.Session

/-!
Failures change nothing. A request that a container turns down leaves it as it was, an action
that fails leaves its container, and a command that fails leaves the whole session. The one
exception is a list whose source breaks off: it keeps what was delivered.
-/

namespace SeqStore

variable {α γ : Type}

/-! ## Requests -/

/-- The operations of the shared interface fail for one cause each, and without a change. -/
structure FailsCleanly (γ : Type) {α : Type} [BEq α] [MutableContainer γ α] : Prop where
  get {c : γ} {idx : UInt64} {error : AccessError}
    (h : (Container.get c idx).value = .error error) : error = .outOfRange idx (Container.len c)
  append {c : γ} {x : α} {cause : Abort}
    (h : (MutableContainer.append c x).value.answer = .error cause) :
    cause = .full ∧ (MutableContainer.append c x).value.after = c
  remove {c : γ} {x : α} {error : AccessError}
    (h : (MutableContainer.remove c x).value.answer = .error error) :
    error = .notFound ∧ (MutableContainer.remove c x).value.after = c
  set {c : γ} {idx : UInt64} {x : α} {error : AccessError}
    (h : (MutableContainer.set c idx x).value.answer = .error error) :
    error = .outOfRange idx (Container.len c) ∧ (MutableContainer.set c idx x).value.after = c

/-- Removing from a list searches and then unlinks. Once the search has succeeded the unlinking
does too, on any chain and with any counter, so the second stage adds no failure. -/
theorem LinkedList.failsCleanly [BEq α] : FailsCleanly (LinkedList α) where
  get {l idx error} h := by
    change (l.get idx).value = _ at h
    rw [l.get_eq] at h
    cases hget : l.toList[idx.toNat]? <;> rw [hget] at h <;> cases h
    rfl
  append {l x cause} h := by cases h
  remove {l x error} h := by
    change (l.remove x).value.answer = _ at h
    change _ ∧ (l.remove x).value.after = l
    cases hfind : l.toList.findIdx? (· == x) with
    | none =>
      rw [l.remove_absent hfind] at h ⊢
      cases h
      exact ⟨rfl, rfl⟩
    | some pos =>
      -- the unlinking finds a node at the position of the search, so the answer is no error
      obtain ⟨y, -, hremove⟩ := l.remove_found hfind
      rw [hremove] at h
      cases h
  set {l idx x error} h := by
    change (l.set idx x).value.answer = _ at h
    change _ ∧ (l.set idx x).value.after = l
    rw [l.set_eq] at h ⊢
    cases hget : l.toList[idx.toNat]? <;> rw [hget] at h <;> cases h
    exact ⟨rfl, rfl⟩

theorem Buffer.failsCleanly [BEq α] : FailsCleanly (Buffer α) where
  get {b idx error} h := by
    change (b.get idx).value = _ at h
    rw [b.get_eq] at h
    cases hget : b.toList[idx.toNat]? <;> rw [hget] at h <;> cases h
    rfl
  append {b x cause} h := by
    change (b.append x).value.answer = _ at h
    change _ ∧ (b.append x).value.after = b
    rw [b.append_eq] at h ⊢
    cases hfull : b.isFull <;> rw [hfull] at h <;> cases h
    exact ⟨rfl, rfl⟩
  remove {b x error} h := by
    change (b.remove x).value.answer = _ at h
    change _ ∧ (b.remove x).value.after = b
    rw [b.remove_eq] at h ⊢
    cases hfind : b.toList.find? (· == x) <;> rw [hfind] at h <;> cases h
    exact ⟨rfl, rfl⟩
  set {b idx x error} h := by
    change (b.set idx x).value.answer = _ at h
    change _ ∧ (b.set idx x).value.after = b
    rw [b.set_eq] at h ⊢
    cases hget : b.toList[idx.toNat]? <;> rw [hget] at h <;> cases h
    exact ⟨rfl, rfl⟩

/-- A list fails to grow only if the source breaks off. -/
theorem LinkedList.extend_error {l : LinkedList α} {source : Source α} {cause : Abort}
    (h : (l.extend source).value.answer = .error cause) :
    ∃ reason, source.failure = some reason ∧ cause = .source reason := by
  rw [l.extend_eq] at h
  cases hfailure : source.failure <;> rw [hfailure] at h <;> cases h
  exact ⟨_, rfl, rfl⟩

theorem Tuple.get_error {t : Tuple α} {idx : UInt64} {error : AccessError}
    (h : (t.get idx).value = .error error) : error = .outOfRange idx t.count := by
  unfold Tuple.get at h
  cases hget : t.elements[idx.toNat]? <;> rw [hget] at h <;> cases h
  rfl

/-- The only failure with which a container of length `len` can turn the request down. -/
def Request.refusal? (len : UInt64) : Request α → Option Failure
  | .get idx | .set idx _ => some (.access (.outOfRange idx len))
  | .remove _ => some (.access .notFound)
  | .append _ => some (.abort .full)
  | .len | .isEmpty | .index _ | .contains _ => none

theorem Vessel.access_eq_error {result : Except AccessError α} {failure : Failure}
    (h : access result = .error failure) :
    ∃ error, result = .error error ∧ failure = .access error := by
  cases result <;> cases h
  exact ⟨_, rfl, rfl⟩

theorem Vessel.demand_eq_error {result : Except AccessError α} {failure : Failure}
    (h : demand (result.mapError .position) = .error failure) :
    ∃ error, result = .error error ∧ failure = .abort (.position error) := by
  cases result <;> cases h
  exact ⟨_, rfl, rfl⟩

theorem Vessel.finish_eq_error {result : Except Abort Unit} {failure : Failure}
    (h : (finish result : Except Failure (Answer α)) = .error failure) :
    ∃ cause, result = .error cause ∧ failure = .abort cause := by
  cases result <;> cases h
  exact ⟨_, rfl, rfl⟩

/-- A request that fails does so for its one cause, and without a change. -/
theorem Request.perform_error [BEq α] [MutableContainer γ α] (clean : FailsCleanly γ) {c : γ}
    {request : Request α} {failure : Failure}
    (h : (request.perform c).value.answer = .error failure) :
    request.refusal? (Container.len c) = some failure ∧ (request.perform c).value.after = c := by
  cases request with
  | len | isEmpty | index x | contains x => cases h
  | get idx =>
    obtain ⟨error, hget, rfl⟩ := Vessel.access_eq_error h
    obtain rfl := clean.get hget
    exact ⟨rfl, rfl⟩
  | append x =>
    obtain ⟨cause, happend, rfl⟩ := Vessel.finish_eq_error h
    obtain ⟨rfl, hafter⟩ := clean.append happend
    exact ⟨rfl, hafter⟩
  | remove x =>
    obtain ⟨error, hremove, rfl⟩ := Vessel.access_eq_error h
    obtain ⟨rfl, hafter⟩ := clean.remove hremove
    exact ⟨rfl, hafter⟩
  | set idx x =>
    obtain ⟨error, hset, rfl⟩ := Vessel.access_eq_error h
    obtain ⟨rfl, hafter⟩ := clean.set hset
    exact ⟨rfl, hafter⟩

/-! ## Actions -/

namespace Vessel

variable [Element α] {failure : Failure}

theorem actOnList_on_error {l : LinkedList α} (route : Route) (request : Request α)
    (h : (actOnList l (request.on route)).value.answer = .error failure) :
    request.refusal? l.len = some failure ∧
      (actOnList l (request.on route)).value.after = .list l := by
  rw [Request.actOnList_on] at h ⊢
  obtain ⟨hrefusal, hafter⟩ := Request.perform_error LinkedList.failsCleanly h
  exact ⟨hrefusal, congrArg Vessel.list hafter⟩

theorem edit_on_error {b : Buffer α} (route : Route) (request : Request α)
    (h : (edit .buffer b (request.on route)).value.answer = .error failure) :
    request.refusal? b.len = some failure ∧
      (edit .buffer b (request.on route)).value.after = .buffer b := by
  rw [Request.edit_on] at h ⊢
  obtain ⟨hrefusal, hafter⟩ := Request.perform_error Buffer.failsCleanly h
  exact ⟨hrefusal, congrArg Vessel.buffer hafter⟩

/-- A failed action leaves a list alone, unless its source broke off. -/
theorem actOnList_error {l : LinkedList α} {action : Action α}
    (h : (actOnList l action).value.answer = .error failure) :
    (actOnList l action).value.after = .list l ∨
      ∃ source reason, action = .extend source ∧ source.failure = some reason ∧
        failure = .abort (.source reason) := by
  cases action with
  | len route => exact .inl (actOnList_on_error route .len h).2
  | isEmpty route => exact .inl (actOnList_on_error route .isEmpty h).2
  | index route x => exact .inl (actOnList_on_error route (.index x) h).2
  | contains route x => exact .inl (actOnList_on_error route (.contains x) h).2
  | get route idx => exact .inl (actOnList_on_error route (.get idx) h).2
  | append route x => exact .inl (actOnList_on_error route (.append x) h).2
  | remove route x => exact .inl (actOnList_on_error route (.remove x) h).2
  | set route idx x => exact .inl (actOnList_on_error route (.set idx x) h).2
  | setOrAbort idx x =>
    obtain ⟨error, hset, -⟩ := demand_eq_error h
    exact .inl (congrArg Vessel.list (LinkedList.failsCleanly.set hset).2)
  | clear => cases h
  | extend source =>
    obtain ⟨cause, hextend, rfl⟩ := finish_eq_error h
    obtain ⟨reason, hfailure, rfl⟩ := LinkedList.extend_error hextend
    exact .inr ⟨source, reason, rfl, hfailure, rfl⟩
  | _ => exact .inl rfl

theorem actOnTuple_error {t : Tuple α} {action : Action α}
    (h : (actOnTuple t action).value.answer = .error failure) :
    (actOnTuple t action).value.after = .tuple t := by
  cases action with
  | len route | isEmpty route | index route | contains route | get route => cases route <;> rfl
  | release => cases h
  | feed =>
    unfold actOnTuple
    cases (Element.feed? : Option (α → List UInt8)) <;> rfl
  | _ => rfl

theorem edit_error {b : Buffer α} {action : Action α}
    (h : (edit .buffer b action).value.answer = .error failure) :
    (edit .buffer b action).value.after = .buffer b := by
  cases action with
  | append route x => exact (edit_on_error route (.append x) h).2
  | remove route x => exact (edit_on_error route (.remove x) h).2
  | set route idx x => exact (edit_on_error route (.set idx x) h).2
  | _ => rfl

theorem act_error {v : Vessel α} {action : Action α}
    (h : (v.act action).value.answer = .error failure) :
    (v.act action).value.after = v ∨
      ∃ l source reason, v = .list l ∧ action = .extend source ∧
        source.failure = some reason ∧ failure = .abort (.source reason) := by
  cases v with
  | list l =>
    rcases actOnList_error h with hafter | ⟨source, reason, hbroken⟩
    · exact .inl hafter
    · exact .inr ⟨l, source, reason, rfl, hbroken⟩
  | tuple t => exact .inl (actOnTuple_error h)
  | gapped g => exact .inl rfl
  | buffer b => exact .inl (edit_error h)

end Vessel

/-- The error of an access, whether it was handed out or ended the operation. -/
def Failure.accessError? : Failure → Option AccessError
  | .access error => some error
  | .abort (.position cause) => some cause
  | _ => none

/-- Actions that name a position: reads and writes, handed out or demanded. -/
def Action.isPositional : Action α → Bool
  | .get _ _ | .set _ _ _ | .getOrAbort _ | .setOrAbort _ _ => true
  | _ => false

namespace Vessel

variable [Element α] {failure : Failure}

/-- No container turns a removal down for a position. -/
theorem act_remove_error {v : Vessel α} {route : Route} {x : α}
    (h : (v.act (.remove route x)).value.answer = .error failure) (index len : UInt64) :
    failure.accessError? ≠ some (.outOfRange index len) := by
  cases v with
  | list l =>
    cases (actOnList_on_error route (.remove x) h).1
    exact nofun
  | buffer b =>
    cases (edit_on_error route (.remove x) h).1
    exact nofun
  | tuple t =>
    cases h
    exact nofun
  | gapped g =>
    cases h
    exact nofun

theorem actOnList_positional_error {l : LinkedList α} {action : Action α}
    (positional : action.isPositional) (h : (actOnList l action).value.answer = .error failure) :
    failure.accessError? ≠ some .notFound := by
  cases action with
  | get route idx =>
    cases (actOnList_on_error route (.get idx) h).1
    exact nofun
  | set route idx x =>
    cases (actOnList_on_error route (.set idx x) h).1
    exact nofun
  | getOrAbort idx =>
    obtain ⟨error, hget, rfl⟩ := demand_eq_error h
    cases LinkedList.failsCleanly.get hget
    exact nofun
  | setOrAbort idx x =>
    obtain ⟨error, hset, rfl⟩ := demand_eq_error h
    cases (LinkedList.failsCleanly.set hset).1
    exact nofun
  | _ => cases positional

theorem actOnTuple_positional_error {t : Tuple α} {action : Action α}
    (positional : action.isPositional) (h : (actOnTuple t action).value.answer = .error failure) :
    failure.accessError? ≠ some .notFound := by
  cases action with
  | get route idx =>
    have hget : access (t.get idx).value = .error failure := by cases route <;> exact h
    obtain ⟨error, herror, rfl⟩ := access_eq_error hget
    cases Tuple.get_error herror
    exact nofun
  | getOrAbort idx =>
    obtain ⟨error, hget, rfl⟩ := demand_eq_error h
    cases Tuple.get_error hget
    exact nofun
  | set | setOrAbort =>
    cases h
    exact nofun
  | _ => cases positional

theorem edit_positional_error {b : Buffer α} {action : Action α}
    (positional : action.isPositional)
    (h : (edit .buffer b action).value.answer = .error failure) :
    failure.accessError? ≠ some .notFound := by
  cases action with
  | get route idx =>
    cases (edit_on_error route (.get idx) h).1
    exact nofun
  | set route idx x =>
    cases (edit_on_error route (.set idx x) h).1
    exact nofun
  | getOrAbort | setOrAbort =>
    cases h
    exact nofun
  | _ => cases positional

/-- A position is turned down as one, never for a missing element; only the empty places of a
gapped sequence are. -/
theorem act_positional_error {v : Vessel α} {action : Action α}
    (positional : action.isPositional) (solid : ∀ g, v ≠ .gapped g)
    (h : (v.act action).value.answer = .error failure) :
    failure.accessError? ≠ some .notFound := by
  cases v with
  | list l => exact actOnList_positional_error positional h
  | tuple t => exact actOnTuple_positional_error positional h
  | gapped g => exact absurd rfl (solid g)
  | buffer b => exact edit_positional_error positional h

end Vessel

/-! ## Commands -/

namespace Session

variable [Element α] {s : Session α} {name : String} {failure : Failure}

theorem make_error {recipe : Recipe α}
    (h : (s.exec name (.make recipe)).value.answer = .error failure) :
    (s.exec name (.make recipe)).value.after = s := by
  simp only [exec, Traced.value_bind] at h ⊢
  cases hbuild : recipe.build.value with
  | ok v =>
    rw [hbuild] at h
    cases h
  | error cause => rfl

theorem act_error {action : Action α}
    (h : (s.exec name (.act action)).value.answer = .error failure) :
    (s.exec name (.act action)).value.after = s ∨
      ∃ l source reason, s.find? name = some (.list l) ∧ action = .extend source ∧
        source.failure = some reason ∧ failure = .abort (.source reason) := by
  simp only [exec] at h ⊢
  cases hfind : s.find? name with
  | none => exact .inl rfl
  | some v =>
    rw [hfind] at h
    rcases Vessel.act_error h with hafter | ⟨l, source, reason, rfl, hbroken⟩
    · refine .inl ?_
      -- the session stores the container again, failed or not
      change s.put name (v.act action).value.after = s
      rw [hafter]
      exact put_self hfind
    · exact .inr ⟨l, source, reason, rfl, hbroken⟩

theorem clone_error {dst : String}
    (h : (s.exec name (.clone dst)).value.answer = .error failure) :
    (s.exec name (.clone dst)).value.after = s := by
  simp only [exec] at h ⊢
  cases hfind : s.find? name with
  | none => rfl
  | some v =>
    rw [hfind] at h
    cases v with
    | list | tuple => cases h
    | gapped | buffer => rfl

theorem take_error {dst : String}
    (h : (s.exec name (.take dst)).value.answer = .error failure) :
    (s.exec name (.take dst)).value.after = s := by
  simp only [exec] at h ⊢
  cases hfind : s.find? name with
  | none => rfl
  | some v =>
    rw [hfind] at h
    cases v with
    | list => cases h
    | tuple | gapped | buffer => rfl

theorem eq_after (other : String) : (s.exec name (.eq other)).value.after = s := by
  simp only [exec]
  split <;> rfl

theorem extendFrom_error {other : String}
    (h : (s.exec name (.extendFrom other)).value.answer = .error failure) :
    (s.exec name (.extendFrom other)).value.after = s := by
  simp only [exec] at h ⊢
  split at h
  · rw [extendBy_answer] at h
    cases h
  · rw [extendBy_answer] at h
    cases h
  all_goals rfl

/-- A failed command leaves the session alone, unless it extends a list and the source breaks
off. -/
theorem exec_error {command : Command α}
    (h : (s.exec name command).value.answer = .error failure) :
    (s.exec name command).value.after = s ∨
      ∃ l source reason, s.find? name = some (.list l) ∧ command = .act (.extend source) ∧
        source.failure = some reason ∧ failure = .abort (.source reason) := by
  cases command with
  | make recipe => exact .inl (make_error h)
  | drop => cases h
  | act action =>
    rcases act_error h with hafter | ⟨l, source, reason, hfind, rfl, hbroken⟩
    · exact .inl hafter
    · exact .inr ⟨l, source, reason, hfind, rfl, hbroken⟩
  | clone dst => exact .inl (clone_error h)
  | take dst => exact .inl (take_error h)
  | eq other => exact .inl (eq_after other)
  | extendFrom other => exact .inl (extendFrom_error h)

/-- A failure under a name is that of the container there, or that there is none. -/
theorem act_failure {action : Action α}
    (h : (s.exec name (.act action)).value.answer = .error failure) :
    failure = .noSuchVariable ∨
      ∃ v, s.find? name = some v ∧ (v.act action).value.answer = .error failure := by
  simp only [exec] at h
  cases hfind : s.find? name with
  | none =>
    rw [hfind] at h
    cases h
    exact .inl rfl
  | some v =>
    rw [hfind] at h
    exact .inr ⟨v, rfl, h⟩

/-- In every session, a command that fails leaves every container exactly as it was, nodes and
counters included, unless it extends a list by a source that breaks off. Removing never fails
over a position, and reading or writing at a position of a list, a tuple or a buffer never
fails over a missing element. -/
theorem failure_keeps_session (s : Session α) (name : String) (command : Command α)
    (failure : Failure) (h : (s.exec name command).value.answer = .error failure) :
    ((s.exec name command).value.after = s ∨
      ∃ l source reason, s.find? name = some (.list l) ∧ command = .act (.extend source) ∧
        source.failure = some reason ∧ failure = .abort (.source reason)) ∧
    (∀ route x, command = .act (.remove route x) →
      ∀ index len, failure.accessError? ≠ some (.outOfRange index len)) ∧
    (∀ action, command = .act action → action.isPositional →
      (∀ g, s.find? name ≠ some (.gapped g)) → failure.accessError? ≠ some .notFound) := by
  refine ⟨exec_error h, ?_, ?_⟩
  · rintro route x rfl index len
    rcases act_failure h with rfl | ⟨v, -, hact⟩
    · exact nofun
    · exact Vessel.act_remove_error hact index len
  · rintro action rfl positional solid
    rcases act_failure h with rfl | ⟨v, hfind, hact⟩
    · exact nofun
    · refine Vessel.act_positional_error positional (fun g hg => solid g ?_) hact
      rw [hfind, hg]

/-- A list beside a buffer without room. -/
def crowded : Session Int64 :=
  ⟨[("a", .list ⟨.ofList [7, 8], 2⟩), ("b", .buffer ⟨.fixed 1, #[9]⟩)]⟩

theorem failure_keeps_session_crowded :
    (crowded.exec "b" (.act (.append .shared 4))).value.after = crowded ∧
      (crowded.exec "a" (.act (.remove .own 5))).value.after = crowded ∧
      (crowded.exec "a" (.act (.setOrAbort 2 5))).value.after = crowded ∧
      (crowded.exec "b" (.make (.json .list (.array [.int 5, .null])))).value.after =
        crowded := by
  have happend := failure_keeps_session crowded "b" (.act (.append .shared 4)) (.abort .full) rfl
  have hremove := failure_keeps_session crowded "a" (.act (.remove .own 5)) (.access .notFound) rfl
  have hset := failure_keeps_session crowded "a" (.act (.setOrAbort 2 5))
    (.abort (.position (.outOfRange 2 2))) rfl
  have hmake := failure_keeps_session crowded "b" (.make (.json .list (.array [.int 5, .null])))
    (.decode (.wrongType .null .integer)) rfl
  exact ⟨happend.1.resolve_right nofun, hremove.1.resolve_right nofun,
    hset.1.resolve_right nofun, hmake.1.resolve_right nofun⟩

end Session

end SeqStore
