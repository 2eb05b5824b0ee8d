import SeqStore.Proofs.Atomicity
import SeqStore.Proofs.Trail

/-!
The log of a list is a ledger of its length. Whoever has nothing but the events can follow the
length from the empty list on: each event fits the balance of those before it, and the last
balance is the length. Changes and refusals are noted once each, everything else not at all.
-/

namespace SeqStore

namespace Event

/-- By how much the length has changed, as the event has it. -/
def change : Event → Int
  | .appended _ => 1
  | .removed _ _ => -1
  | .extended added _ => added.toNat
  | .cleared dropped => -dropped.toNat
  | .absentFromList _ | .absentFromBuffer _ | .rejected _ _ => 0

/-- The event names the right length, where the balance before it is `n`: growing and removing
name the length they lead to, clearing and refusing the length they found. Lists have nothing
to do with the events of buffers. -/
def Fits (n : Int) (event : Event) : Prop :=
  match event with
  | .appended len | .removed _ len | .extended _ len => n + event.change = len.toNat
  | .cleared len | .absentFromList len | .rejected _ len => n = len.toNat
  | .absentFromBuffer _ => False

end Event

/-- The length after a log that starts at a length of `n`, going by its events alone. -/
def balance (n : Int) (log : List Event) : Int := log.foldl (fun n event => n + event.change) n

/-- Every event of the log fits the balance before it, and no balance is negative. -/
def Accounts (n : Int) : List Event → Prop
  | [] => True
  | event :: rest =>
      event.Fits n ∧ 0 ≤ n + event.change ∧ Accounts (n + event.change) rest

theorem balance_append (n : Int) (first second : List Event) :
    balance n (first ++ second) = balance (balance n first) second :=
  List.foldl_append

theorem accounts_append {n : Int} {first second : List Event} :
    Accounts n (first ++ second) ↔ Accounts n first ∧ Accounts (balance n first) second := by
  induction first generalizing n with
  | nil => simp [Accounts, balance]
  | cons event rest ih => simp [Accounts, ih, balance, and_assoc]

/-- A single event after which the length is `m`. -/
private theorem accounts_singleton {n m : Nat} {event : Event} (fits : event.Fits n)
    (hchange : n + event.change = m) :
    Accounts n [event] ∧ balance n [event] = m := by
  refine ⟨⟨fits, ?_, trivial⟩, hchange⟩
  omega

variable {α : Type}

/-! ## One action -/

/-- A position that the sequence does not have is past its end. -/
private theorem length_le_of_getElem?_eq_none {xs : List α} {idx : UInt64}
    (h : xs[idx.toNat]? = none) :
    xs.length.toUInt64 ≤ idx := by
  have hle : xs.length ≤ idx.toNat := by simpa using h
  exact Nat.le_trans (by simpa using Nat.mod_le _ _) hle

section

variable [Element α]

private theorem remove_accounts (xs : List α) (x : α) (short : xs.length < UInt64.size) :
    Accounts xs.length ((Request.remove x).notes xs) ∧
      balance xs.length ((Request.remove x).notes xs) = (xs.eraseP (· == x)).length := by
  rw [Request.notes, List.eraseP_eq_eraseIdx]
  cases hfind : xs.findIdx? (· == x) with
  | none =>
    have hlen : xs.length.toUInt64.toNat = xs.length := UInt64.toNat_ofNat_of_lt short
    apply accounts_singleton
    · simp [Event.Fits, hlen]
    · simp [Event.change]
  | some pos =>
    obtain ⟨hpos, -⟩ := List.findIdx?_eq_some_iff_getElem.mp hfind
    have hlen : (xs.length - 1).toUInt64.toNat = xs.length - 1 :=
      UInt64.toNat_ofNat_of_lt (by omega)
    have herase := List.length_eraseIdx_of_lt hpos
    apply accounts_singleton
    · simp only [Event.Fits, Event.change, hlen]
      omega
    · simp only [Event.change, herase]
      omega

private theorem position_accounts (xs : List α) (idx : UInt64) (short : xs.length < UInt64.size) :
    Accounts xs.length ((Request.get idx).notes xs) ∧
      balance xs.length ((Request.get idx).notes xs) = xs.length := by
  rw [Request.notes]
  cases xs[idx.toNat]? with
  | some x => exact ⟨trivial, rfl⟩
  | none =>
    have hlen : xs.length.toUInt64.toNat = xs.length := UInt64.toNat_ofNat_of_lt short
    apply accounts_singleton
    · simp [Event.Fits, hlen]
    · simp [Event.change]

/-- What is noted about an action accounts for what it does to the length. -/
theorem notes_account (xs : List α) (action : Action α) (short : xs.length < UInt64.size)
    (unbroken : ∀ source, action = .extend source → source.failure = none)
    (after : (actOnSequence xs action).after.length < UInt64.size) :
    Accounts xs.length (action.notes xs) ∧
      balance xs.length (action.notes xs) = (actOnSequence xs action).after.length := by
  cases action with
  | append route x =>
    have hlength : xs.length + 1 < UInt64.size := by
      simpa [actOnSequence, Request.plain] using after
    have hlen : (xs.length + 1).toUInt64.toNat = xs.length + 1 := UInt64.toNat_ofNat_of_lt hlength
    apply accounts_singleton
    · simp only [Event.Fits, Event.change, hlen]
      omega
    · simp [Event.change, actOnSequence, Request.plain]
  | remove route x => exact remove_accounts xs x short
  | get route idx => exact position_accounts xs idx short
  | getOrAbort idx => exact position_accounts xs idx short
  | set route idx x | setOrAbort idx x =>
    have hlength : (xs.set idx.toNat x).length = xs.length := List.length_set
    simp only [actOnSequence, Request.plain, hlength]
    exact position_accounts xs idx short
  | clear =>
    have hlen : xs.length.toUInt64.toNat = xs.length := UInt64.toNat_ofNat_of_lt short
    apply accounts_singleton
    · simp [Event.Fits, hlen]
    · simp only [Event.change, hlen, actOnSequence, List.length_nil]
      omega
  | extend source =>
    have hfailure := unbroken source rfl
    have hlength : xs.length + source.delivered.length < UInt64.size := by
      simpa [actOnSequence] using after
    have hadded : source.delivered.length.toUInt64.toNat = source.delivered.length :=
      UInt64.toNat_ofNat_of_lt (by omega)
    have hlen : (xs.length + source.delivered.length).toUInt64.toNat =
        xs.length + source.delivered.length := UInt64.toNat_ofNat_of_lt hlength
    simp only [Action.notes, hfailure]
    apply accounts_singleton
    · simp only [Event.Fits, Event.change, hadded, hlen]
      omega
    · simp [Event.change, hadded, actOnSequence]
  | _ => exact ⟨trivial, rfl⟩

/-- What a deed on a list leaves in the log: one event for a change, one for a refusal with its
numbers, and nothing else. -/
def Deed.Reported (d : Deed α) : Prop :=
  match d.answer with
  | .ok _ =>
      match d.action with
      | .append _ _ => ∃ len, d.log = [.appended len]
      | .remove _ x => ∃ l pos len, d.before = .list l ∧ l.index x = some pos ∧
          d.log = [.removed pos len]
      | .clear => ∃ dropped, d.log = [.cleared dropped]
      | .extend _ => ∃ added len, d.log = [.extended added len]
      | _ => d.log = []
  | .error failure =>
      match failure.accessError? with
      | some .notFound => ∃ len, d.log = [.absentFromList len]
      | some (.outOfRange index len) => d.log = [.rejected index len] ∧ len ≤ index
      | none => d.log = []

variable {l : LinkedList α} {xs : List α}

theorem deed_reported (h : l.Holds xs) (action : Action α)
    (short : ((Vessel.list l).deed action).after.Short) :
    ((Vessel.list l).deed action).Reported := by
  obtain ⟨l', -, hdeed⟩ := Vessel.deed_list h action short
  rw [hdeed]
  cases action with
  | append route x => exact ⟨_, rfl⟩
  | clear => exact ⟨_, rfl⟩
  | get route idx | set route idx x | getOrAbort idx | setOrAbort idx x =>
    simp only [Deed.Reported, actOnSequence, Request.plain, Request.entry, Action.notes,
      Request.notes]
    cases hget : xs[idx.toNat]? with
    | some y => rfl
    | none => exact ⟨rfl, length_le_of_getElem?_eq_none hget⟩
  | remove route x =>
    simp only [Deed.Reported, actOnSequence, Request.plain, Request.firstMatch, Action.notes,
      Request.notes, List.find?_eq_bind_findIdx?_getElem?]
    cases hfind : xs.findIdx? (· == x) with
    | none => exact ⟨_, rfl⟩
    | some pos =>
      obtain ⟨hpos, -⟩ := List.findIdx?_eq_some_iff_getElem.mp hfind
      simp only [Option.bind_some, List.getElem?_eq_getElem hpos]
      refine ⟨l, pos.toUInt64, _, rfl, ?_, rfl⟩
      rw [l.index_eq, h.elements, hfind]
      rfl
  | extend source =>
    simp only [Deed.Reported, actOnSequence, Action.notes]
    cases source.failure with
    | some reason => rfl
    | none => exact ⟨_, _, rfl⟩
  | toJson =>
    simp only [Deed.Reported, actOnSequence, Sequence.json, Action.notes]
    cases xs.mapM Encode.encode <;> trivial
  | _ => rfl

end

/-! ## Runs -/

section

variable [Element α]

private theorem trail_accounts (actions : List (Action α)) {l : LinkedList α} {xs : List α}
    (h : l.Holds xs) (unbroken : ∀ source, .extend source ∈ actions → source.failure = none)
    (short : ∀ deed ∈ (Vessel.list l).trail actions, deed.after.Short) :
    Accounts xs.length (((Vessel.list l).trail actions).flatMap Deed.log) ∧
      (∃ final, (Vessel.list l).outcome actions = .list final ∧
        balance xs.length (((Vessel.list l).trail actions).flatMap Deed.log) = final.len.toNat) ∧
      ∀ deed ∈ (Vessel.list l).trail actions, deed.Reported := by
  -- the balance before each action is the length of the sequence that the list then holds
  induction actions generalizing l xs with
  | nil => exact ⟨trivial, ⟨l, rfl, by simp [Vessel.trail, balance, h.count]⟩, by simp [Vessel.trail]⟩
  | cons action rest ih =>
    have hshort := short _ List.mem_cons_self
    have hreported := deed_reported h action hshort
    obtain ⟨l', hl', hdeed⟩ := Vessel.deed_list h action hshort
    obtain ⟨haccount, hbalance⟩ := notes_account xs action h.length_lt
      (fun source hsource => unbroken source (by simp [hsource])) hl'.length_lt
    simp only [Vessel.trail, hdeed] at short
    obtain ⟨ihaccount, ihfinal, ihreported⟩ := ih hl'
      (fun source hsource => unbroken source (List.mem_cons_of_mem _ hsource))
      (fun deed hmem => short deed (List.mem_cons_of_mem _ hmem))
    refine ⟨?_, ?_, ?_⟩
    · simp only [Vessel.trail, hdeed, List.flatMap_cons, accounts_append, hbalance]
      exact ⟨haccount, ihaccount⟩
    · simp only [Vessel.trail, Vessel.outcome, hdeed, List.flatMap_cons, balance_append, hbalance]
      exact ihfinal
    · intro deed hmem
      rw [Vessel.trail, List.mem_cons] at hmem
      rcases hmem with rfl | hmem
      · exact hreported
      · exact ihreported deed (by simpa only [hdeed] using hmem)

/-- For every run of actions on a list that starts empty, sources breaking off apart: the events
alone account for the length. Their balance from zero is never negative, every length that an
event names is the balance at that moment, and the last balance is the length of the list.
Each change is reported once, each refusal once with its numbers, and a removal with the
position at which the search finds the needle; nothing else is reported. -/
theorem log_accounts_for_length (actions : List (Action α))
    (unbroken : ∀ source, .extend source ∈ actions → source.failure = none)
    (short : ∀ deed ∈ (Vessel.list .empty).trail actions, deed.after.Short) :
    Accounts 0 (((Vessel.list .empty).trail actions).flatMap Deed.log) ∧
      (∃ final, (Vessel.list .empty).outcome actions = .list final ∧
        balance 0 (((Vessel.list .empty).trail actions).flatMap Deed.log) = final.len.toNat) ∧
      ∀ deed ∈ (Vessel.list .empty).trail actions, deed.Reported :=
  trail_accounts actions LinkedList.holds_empty unbroken short

/-- A list grows, loses an element, turns three requests down and is cleared. -/
def eventfulRun : List (Action Int64) :=
  [.append .own 7, .extend (.ofList [8, 7]), .remove .shared 7, .remove .own 9, .get .own 2,
    .setOrAbort 5 1, .clear, .extend (.ofList [])]

theorem log_accounts_for_length_eventfulRun :
    ((Vessel.list .empty).trail eventfulRun).flatMap Deed.log =
        [.appended 1, .extended 2 3, .removed 0 2, .absentFromList 2, .rejected 2 2,
          .rejected 5 2, .cleared 2, .extended 0 0] ∧
      Accounts 0 (((Vessel.list .empty).trail eventfulRun).flatMap Deed.log) := by
  refine ⟨rfl, (log_accounts_for_length eventfulRun ?_ ?_).1⟩
  · intro source hsource
    simp only [eventfulRun, List.mem_cons, reduceCtorEq, Action.extend.injEq, List.not_mem_nil,
      or_false, false_or] at hsource
    rcases hsource with rfl | rfl <;> rfl
  · decide +kernel

end

end SeqStore
