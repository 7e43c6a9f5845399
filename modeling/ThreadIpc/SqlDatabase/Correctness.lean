import ThreadIpc.SqlDatabase.Transactions

/-!
# When an outermost commit reports what it did

`CommitTransaction` answers with the flag as it stands after `OnCommit`. The listener's own
transactions share that flag, and the last of them to begin decides its value.
-/

namespace ThreadIpc.SqlDatabase
open Database

def own (serial : Nat) (log : List Event) : List Kind :=
  (log.filter fun event => event.serial = serial).map (·.kind)

def Finished (kinds : List Kind) : Prop :=
  ((∃ succeeds, .commit succeeds ∈ kinds) ↔ .begin true ∈ kinds ∧ .rollbackCalled ∉ kinds) ∧
    kinds.count .onBegin ≤ 1 ∧
    kinds.count .onBegin = kinds.count .onCommit + kinds.count .onRollback

def ReturnsCommitted (kinds : List Kind) : Prop :=
  ∀ result, .commitReturned result ∈ kinds → (result = true ↔ .commit true ∈ kinds)

def scanMutex : Bool → List Kind → Option Bool
  | held, [] => some held
  | held, .lock :: later => if held then none else scanMutex true later
  | held, .unlock :: later => if held then scanMutex false later else none
  | held, _ :: later => scanMutex held later

structure TransactionsCorrect (log : List Event) : Prop where
  finished : ∀ serial, Finished (own serial log)
  returns : ∀ serial, ReturnsCommitted (own serial log)
  balanced : scanMutex false (log.map (·.kind)) = some false

mutual

/-- Whether a rollback was called for in the nest that began last, if `BEGIN` succeeded at all. -/
def rolledBackLast (hasListener : Bool) : Transaction → Option Bool
  | .run beginSucceeds onBegin body ending _ onEnd =>
      let rolledBack := nestCallsRollback hasListener onBegin body || ending = .rollback
      if beginSucceeds then
        some (if hasListener then (rolledBackLastOf hasListener onEnd).getD rolledBack
          else rolledBack)
      else none

def rolledBackLastOf (hasListener : Bool) : List Transaction → Option Bool
  | [] => none
  | transaction :: later =>
      (rolledBackLastOf hasListener later).or (rolledBackLast hasListener transaction)

end

mutual

/-- No `OnCommit` leaves behind a transaction for which a rollback was called, as the last begun. -/
def leavesCommits (hasListener : Bool) : Transaction → Bool
  | .run beginSucceeds onBegin body ending commitSucceeds onEnd =>
      !beginSucceeds || !hasListener ||
        (leavesAllCommits hasListener onEnd &&
          !(ending = .commit && commitSucceeds && !nestCallsRollback hasListener onBegin body &&
            rolledBackLastOf hasListener onEnd = some true))

def leavesAllCommits (hasListener : Bool) : List Transaction → Bool
  | [] => true
  | transaction :: later =>
      leavesCommits hasListener transaction && leavesAllCommits hasListener later

end

structure Segment (first last : Nat) (reports : Bool) (segment : List Event) : Prop where
  range : ∀ event ∈ segment, first < event.serial ∧ event.serial ≤ last
  finished : ∀ serial, Finished (own serial segment)
  returns : (∀ serial, ReturnsCommitted (own serial segment)) ↔ reports = true
  balanced : scanMutex false (segment.map (·.kind)) = some false

theorem own_append (serial : Nat) (log later : List Event) :
    own serial (log ++ later) = own serial log ++ own serial later := by
  rw [own, List.filter_append, List.map_append]
  rfl

theorem own_eq_nil {serial : Nat} {log : List Event} (none : ∀ event ∈ log, event.serial ≠ serial) :
    own serial log = [] := by
  rw [own, List.filter_eq_nil_iff.mpr fun event member => by simpa using none event member]
  rfl

theorem own_map_self (serial : Nat) (kinds : List Kind) :
    own serial (kinds.map (Event.mk serial)) = kinds := by
  rw [own, List.filter_eq_self.mpr, List.map_map]
  · exact List.map_id _
  · intro event member
    obtain ⟨kind, _, rfl⟩ := List.mem_map.mp member
    exact decide_eq_true rfl

theorem own_map_other {serial other : Nat} (different : other ≠ serial) (kinds : List Kind) :
    own serial (kinds.map (Event.mk other)) = [] := by
  apply own_eq_nil
  intro event member
  obtain ⟨kind, _, rfl⟩ := List.mem_map.mp member
  exact different

theorem finished_nil : Finished [] := by
  simp [Finished]

theorem returnsCommitted_nil : ReturnsCommitted [] :=
  fun _ member => absurd member List.not_mem_nil

theorem scanMutex_append (held : Bool) (kinds later : List Kind) :
    scanMutex held (kinds ++ later) =
      (scanMutex held kinds).bind fun held => scanMutex held later := by
  induction kinds generalizing held with
  | nil => rfl
  | cons kind kinds ih =>
      cases kind <;> cases held <;> simp [scanMutex, ih]

theorem segment_nil (serial : Nat) : Segment serial serial true [] where
  range _ member := absurd member List.not_mem_nil
  finished _ := finished_nil
  returns := ⟨fun _ => rfl, fun _ _ => returnsCommitted_nil⟩
  balanced := rfl

theorem Segment.append {first middle last : Nat} {reports reports' : Bool}
    {segment later : List Event} (before : Segment first middle reports segment)
    (after : Segment middle last reports' later) (order : first ≤ middle) (order' : middle ≤ last) :
    Segment first last (reports && reports') (segment ++ later) := by
  have apart (serial : Nat) : own serial segment = [] ∨ own serial later = [] := by
    by_cases early : serial ≤ middle
    · refine .inr (own_eq_nil fun event member => ?_)
      exact Nat.ne_of_gt (Nat.lt_of_le_of_lt early (after.range event member).1)
    · refine .inl (own_eq_nil fun event member => ?_)
      exact Nat.ne_of_lt (Nat.lt_of_le_of_lt (before.range event member).2 (Nat.lt_of_not_le early))
  constructor
  · intro event member
    rcases List.mem_append.mp member with member | member
    · exact ⟨(before.range event member).1, Nat.le_trans (before.range event member).2 order'⟩
    · exact ⟨Nat.lt_of_le_of_lt order (after.range event member).1, (after.range event member).2⟩
  · intro serial
    rw [own_append]
    rcases apart serial with none | none
    · rw [none]
      exact after.finished serial
    · rw [none, List.append_nil]
      exact before.finished serial
  · rw [Bool.and_eq_true, ← before.returns, ← after.returns, ← forall_and]
    apply forall_congr'
    intro serial
    rw [own_append]
    rcases apart serial with none | none
    · simp [none, returnsCommitted_nil]
    · simp [none, returnsCommitted_nil]
  · rw [List.map_append, scanMutex_append, before.balanced]
    exact after.balanced

theorem Segment.around {first last : Nat} {ownReports reports : Bool} {kinds tail : List Kind}
    {inner : List Event} (order : first + 1 ≤ last) (within : Segment (first + 1) last reports inner)
    (finished : Finished (kinds ++ tail))
    (returns : ReturnsCommitted (kinds ++ tail) ↔ ownReports = true)
    (balanced : scanMutex false kinds = some false) (free : scanMutex false tail = some false) :
    Segment first last (reports && ownReports) (kinds.map (Event.mk (first + 1)) ++ inner ++
      tail.map (Event.mk (first + 1))) := by
  have innerOther : own (first + 1) inner = [] :=
    own_eq_nil fun event member => Nat.ne_of_gt (within.range event member).1
  have ownAll (serial : Nat) : own serial (kinds.map (Event.mk (first + 1)) ++ inner ++
      tail.map (Event.mk (first + 1))) =
        if serial = first + 1 then kinds ++ tail else own serial inner := by
    rw [own_append, own_append]
    split
    · rename_i same
      rw [same, own_map_self, own_map_self, innerOther, List.append_nil]
    · rename_i different
      rw [own_map_other (Ne.symm different), own_map_other (Ne.symm different), List.append_nil]
      rfl
  constructor
  · intro event member
    simp only [List.mem_append, List.mem_map] at member
    rcases member with (⟨kind, _, rfl⟩ | member) | ⟨kind, _, rfl⟩
    · exact ⟨Nat.lt_succ_self first, order⟩
    · exact ⟨Nat.lt_of_succ_lt (within.range event member).1, (within.range event member).2⟩
    · exact ⟨Nat.lt_succ_self first, order⟩
  · intro serial
    rw [ownAll]
    split
    · exact finished
    · exact within.finished serial
  · rw [Bool.and_eq_true, ← returns, ← within.returns]
    constructor
    · intro all
      constructor
      · intro serial
        by_cases same : serial = first + 1
        · rw [same, innerOther]
          exact returnsCommitted_nil
        · have reported := all serial
          rwa [ownAll, if_neg same] at reported
      · have reported := all (first + 1)
        rwa [ownAll, if_pos rfl] at reported
    · rintro ⟨others, this⟩ serial
      rw [ownAll]
      split
      · exact this
      · exact others serial
  · have sameKinds (kinds : List Kind) :
        (kinds.map (Event.mk (first + 1))).map (·.kind) = kinds := by
      rw [List.map_map]
      exact List.map_id _
    rw [List.map_append, List.map_append, scanMutex_append, scanMutex_append, sameKinds, sameKinds,
      balanced, Option.bind_some, within.balanced]
    exact free

structure Outside (db after : Database) (reports : Bool) (last : Option Bool) : Prop where
  idle : after.transactionCount = 0
  sameMutex : after.hasMutex = db.hasMutex
  sameListener : after.hasListener = db.hasListener
  order : db.serial ≤ after.serial
  flag : after.needsRollback = last.getD db.needsRollback
  logged : ∃ segment, after.log = db.log ++ segment ∧ Segment db.serial after.serial reports segment

theorem outside_refl {db : Database} (idle : db.transactionCount = 0) : Outside db db true none where
  idle := idle
  sameMutex := rfl
  sameListener := rfl
  order := Nat.le_refl _
  flag := rfl
  logged := ⟨[], (List.append_nil _).symm, segment_nil _⟩

theorem Outside.trans {db middle after : Database} {reports reports' : Bool}
    {last last' : Option Bool} (first : Outside db middle reports last)
    (second : Outside middle after reports' last') :
    Outside db after (reports && reports') (last'.or last) where
  idle := second.idle
  sameMutex := second.sameMutex.trans first.sameMutex
  sameListener := second.sameListener.trans first.sameListener
  order := Nat.le_trans first.order second.order
  flag := by
    rw [second.flag, first.flag]
    cases last' <;> rfl
  logged := by
    obtain ⟨segment, log, before⟩ := first.logged
    obtain ⟨later, log', after⟩ := second.logged
    exact ⟨segment ++ later, by rw [log', log, List.append_assoc],
      before.append after first.order second.order⟩

theorem refused_outside {onBegin : Database → Database} {db : Database}
    (idle : db.transactionCount = 0) :
    Outside db (db.beginTransaction false onBegin).1 true none := by
  rw [beginTransaction_fails idle]
  have finished : Finished (refusing db.hasMutex ++ []) := by
    cases db.hasMutex <;> simp [Finished, refusing]
  have returns : ReturnsCommitted (refusing db.hasMutex ++ []) ↔ true = true := by
    cases db.hasMutex <;> simp [ReturnsCommitted, refusing]
  have balanced : scanMutex false (refusing db.hasMutex) = some false := by
    cases db.hasMutex <;> rfl
  have around := Segment.around (Nat.le_refl _) (segment_nil (db.serial + 1)) finished returns
    balanced rfl
  rw [List.map_nil, List.append_nil, List.append_nil] at around
  exact ⟨idle, rfl, rfl, Nat.le_succ _, rfl, _, rfl, around⟩

def concluding (hasMutex hasListener commitSucceeds : Bool) (calls : Nat) : List Kind :=
  opening hasMutex hasListener ++ List.replicate calls .rollbackCalled ++
    closing hasMutex hasListener (decide (0 < calls)) commitSucceeds

section
variable (hasMutex hasListener commitSucceeds : Bool) (calls : Nat)

theorem finished_concluding : Finished (concluding hasMutex hasListener commitSucceeds calls) := by
  rcases Nat.eq_zero_or_pos calls with none | some
  · cases hasMutex <;> cases hasListener <;> cases commitSucceeds <;>
      simp [none, Finished, concluding, opening, closing]
  · cases hasMutex <;> cases hasListener <;> cases commitSucceeds <;>
      simp [some, Finished, concluding, opening, closing, List.mem_replicate, Nat.ne_of_gt some,
        List.count_replicate]

theorem finished_concluding_returned (result : Bool) :
    Finished (concluding hasMutex hasListener commitSucceeds calls ++ [Kind.commitReturned result]) := by
  have finished := finished_concluding hasMutex hasListener commitSucceeds calls
  simpa [Finished, List.count_append] using finished

theorem commitReturned_notMem_concluding (result : Bool) :
    .commitReturned result ∉ concluding hasMutex hasListener commitSucceeds calls := by
  rcases Nat.eq_zero_or_pos calls with none | some
  · cases hasMutex <;> cases hasListener <;> cases commitSucceeds <;>
      simp [none, concluding, opening, closing]
  · cases hasMutex <;> cases hasListener <;>
      simp [some, concluding, opening, closing, List.mem_replicate]

theorem commit_mem_concluding :
    .commit true ∈ concluding hasMutex hasListener commitSucceeds calls ↔
      calls = 0 ∧ commitSucceeds = true := by
  rcases Nat.eq_zero_or_pos calls with none | some
  · cases hasMutex <;> cases hasListener <;> cases commitSucceeds <;>
      simp [none, concluding, opening, closing]
  · cases hasMutex <;> cases hasListener <;>
      simp [some, concluding, opening, closing, List.mem_replicate, Nat.ne_of_gt some]

theorem returnsCommitted_concluding :
    ReturnsCommitted (concluding hasMutex hasListener commitSucceeds calls) :=
  fun result member => absurd member
    (commitReturned_notMem_concluding hasMutex hasListener commitSucceeds calls result)

theorem returnsCommitted_concluding_returned (result : Bool) :
    ReturnsCommitted
        (concluding hasMutex hasListener commitSucceeds calls ++ [Kind.commitReturned result]) ↔
      (result = true ↔ calls = 0 ∧ commitSucceeds = true) := by
  simp [ReturnsCommitted, commitReturned_notMem_concluding, commit_mem_concluding]

theorem scanMutex_replicate (held : Bool) :
    scanMutex held (List.replicate calls .rollbackCalled) = some held := by
  induction calls with
  | zero => rfl
  | succ calls ih => exact ih

theorem balanced_concluding :
    scanMutex false (concluding hasMutex hasListener commitSucceeds calls) = some false := by
  have opened : scanMutex false (opening hasMutex hasListener) = some hasMutex := by
    cases hasMutex <;> cases hasListener <;> rfl
  have closed (rolledBack : Bool) :
      scanMutex hasMutex (closing hasMutex hasListener rolledBack commitSucceeds) = some false := by
    cases hasMutex <;> cases hasListener <;> cases rolledBack <;> cases commitSucceeds <;> rfl
  rw [concluding, scanMutex_append, scanMutex_append, opened, Option.bind_some,
    scanMutex_replicate, Option.bind_some, closed]

end

theorem concluded_log (calls : Nat) (commitSucceeds : Bool) (db : Database) :
    (db.concluded calls commitSucceeds).log = db.log ++
      (concluding db.hasMutex db.hasListener commitSucceeds calls).map
        (Event.mk (db.serial + 1)) := by
  simp [concluded, ended, rollbacksCalled, begun, logged, concluding]

theorem notified_outside {onEnd : List Transaction} {db : Database}
    (outside : Outside db (executeAll onEnd db) (leavesAllCommits db.hasListener onEnd)
      (rolledBackLastOf db.hasListener onEnd)) (idle : db.transactionCount = 0) :
    Outside db (db.notified (executeAll onEnd))
      (!db.hasListener || leavesAllCommits db.hasListener onEnd)
      (if db.hasListener then rolledBackLastOf db.hasListener onEnd else none) := by
  by_cases listens : db.hasListener
  · rw [notified, if_pos listens, if_pos listens, listens, Bool.not_true, Bool.false_or, ← listens]
    exact outside
  · rw [notified, if_neg listens, if_neg listens, Bool.eq_false_iff.mpr listens]
    exact outside_refl idle

theorem concluded_flag (calls : Nat) (commitSucceeds : Bool) (db : Database) :
    (db.concluded calls commitSucceeds).needsRollback = decide (0 < calls) := by
  show (false || decide (0 < calls)) = decide (0 < calls)
  exact Bool.false_or _

theorem concluded_outside {db after : Database} {calls : Nat} {commitSucceeds reports own : Bool}
    {last : Option Bool} {tail : List Kind}
    (inner : Outside (db.concluded calls commitSucceeds) after reports last)
    (finished : Finished
      (concluding db.hasMutex db.hasListener commitSucceeds calls ++ tail))
    (returns : ReturnsCommitted
      (concluding db.hasMutex db.hasListener commitSucceeds calls ++ tail) ↔ own = true)
    (free : scanMutex false tail = some false) :
    Outside db { after with log := after.log ++ tail.map (Event.mk (db.serial + 1)) }
      (reports && own) (some (last.getD (decide (0 < calls)))) := by
  obtain ⟨segment, log, correct⟩ := inner.logged
  refine ⟨inner.idle, inner.sameMutex, inner.sameListener, Nat.le_of_succ_le inner.order, ?_, ?_⟩
  · rw [← concluded_flag]
    exact inner.flag
  · refine ⟨_, ?_, Segment.around inner.order correct finished returns
      (balanced_concluding ..) free⟩
    rw [log, concluded_log]
    simp only [List.append_assoc]

theorem answer_honest_iff {flag commitSucceeds : Bool} {calls : Nat} {last : Option Bool}
    (read : flag = last.getD (decide (0 < calls))) :
    ((decide (calls = 0) && commitSucceeds && !flag) = true ↔ calls = 0 ∧ commitSucceeds = true) ↔
      (!(commitSucceeds && !decide (0 < calls) && decide (last = some true))) = true := by
  subst read
  rcases Nat.eq_zero_or_pos calls with none | some
  · rcases last with _ | _ | _ <;> cases commitSucceeds <;> simp [none]
  · simp [some, Nat.ne_of_gt some]

theorem leavesCommits_commit {hasListener commitSucceeds rolledBack : Bool}
    {onBegin body onEnd : List Transaction}
    (nest : nestCallsRollback hasListener onBegin body = rolledBack) :
    leavesCommits hasListener (.run true onBegin body .commit commitSucceeds onEnd) =
      ((!hasListener || leavesAllCommits hasListener onEnd) &&
        !(commitSucceeds && !rolledBack && decide
          ((if hasListener then rolledBackLastOf hasListener onEnd else none) = some true))) := by
  rw [leavesCommits, nest]
  cases hasListener <;> simp

theorem leavesCommits_rollback {hasListener commitSucceeds : Bool}
    {onBegin body onEnd : List Transaction} :
    leavesCommits hasListener (.run true onBegin body .rollback commitSucceeds onEnd) =
      ((!hasListener || leavesAllCommits hasListener onEnd) && true) := by
  rw [leavesCommits]
  simp

theorem rolledBackLast_run {hasListener commitSucceeds rolledBack : Bool} {ending : Ending}
    {onBegin body onEnd : List Transaction}
    (nest : (nestCallsRollback hasListener onBegin body || ending = .rollback) = rolledBack) :
    rolledBackLast hasListener (.run true onBegin body ending commitSucceeds onEnd) =
      some ((if hasListener then rolledBackLastOf hasListener onEnd else none).getD rolledBack) := by
  rw [rolledBackLast, nest]
  cases hasListener <;> simp

mutual

theorem execute_outside (transaction : Transaction) (db : Database)
    (idle : db.transactionCount = 0) :
    Outside db (execute transaction db) (leavesCommits db.hasListener transaction)
      (rolledBackLast db.hasListener transaction) := by
  obtain ⟨beginSucceeds, onBegin, body, ending, commitSucceeds, onEnd⟩ := transaction
  cases beginSucceeds with
  | false =>
      have refused : execute (.run false onBegin body ending commitSucceeds onEnd) db =
          (db.beginTransaction false (executeAll onBegin)).1 := by
        rw [execute, beginTransaction_fails idle]
      rw [refused, leavesCommits, rolledBackLast]
      exact refused_outside idle
  | true =>
      have within (calls : Nat) := notified_outside
        (executeAll_outside onEnd (db.concluded calls commitSucceeds) rfl) rfl
      cases ending with
      | commit =>
          obtain ⟨calls, counted, ran⟩ := execute_commit onBegin body onEnd commitSucceeds idle
          have inner := within calls
          have nest : nestCallsRollback db.hasListener onBegin body = decide (0 < calls) := by
            rw [Bool.eq_iff_iff, ← counted, decide_eq_true_eq]
          have flag := inner.flag
          rw [concluded_flag] at flag
          have outside := concluded_outside inner
            (finished_concluding_returned db.hasMutex db.hasListener commitSucceeds calls _)
            ((returnsCommitted_concluding_returned _ _ _ _ _).trans (answer_honest_iff flag))
            rfl
          rw [ran, leavesCommits_commit nest, rolledBackLast_run (by simpa using nest)]
          exact outside
      | rollback =>
          obtain ⟨calls, called, ran⟩ := execute_rollback onBegin body onEnd commitSucceeds idle
          have nest : (nestCallsRollback db.hasListener onBegin body ||
              decide (Ending.rollback = .rollback)) = decide (0 < calls) := by
            simp [called]
          have finished := finished_concluding db.hasMutex db.hasListener commitSucceeds calls
          have returns := returnsCommitted_concluding db.hasMutex db.hasListener commitSucceeds calls
          rw [← List.append_nil (concluding _ _ _ _)] at finished returns
          have outside := concluded_outside (within calls) finished
            (iff_of_true returns (Eq.refl true)) rfl
          rw [List.map_nil, List.append_nil] at outside
          rw [ran, leavesCommits_rollback, rolledBackLast_run nest]
          exact outside

theorem executeAll_outside (transactions : List Transaction) (db : Database)
    (idle : db.transactionCount = 0) :
    Outside db (executeAll transactions db) (leavesAllCommits db.hasListener transactions)
      (rolledBackLastOf db.hasListener transactions) := by
  cases transactions with
  | nil => exact outside_refl idle
  | cons transaction later =>
      have first := execute_outside transaction db idle
      have second := executeAll_outside later (execute transaction db) first.idle
      rw [first.sameListener] at second
      exact first.trans second

end

/-- Everything but the answer of the outermost commit is right for every listener. -/
theorem transactions_correct_iff (hasMutex hasListener : Bool) (transactions : List Transaction) :
    TransactionsCorrect (executeAll transactions (opened hasMutex hasListener)).log ↔
      leavesAllCommits hasListener transactions = true := by
  have outside := executeAll_outside transactions (opened hasMutex hasListener) rfl
  obtain ⟨segment, log, correct⟩ := outside.logged
  rw [log, show (opened hasMutex hasListener).log = [] from rfl, List.nil_append]
  constructor
  · intro all
    exact correct.returns.mp all.returns
  · intro leaves
    exact ⟨correct.finished, correct.returns.mpr leaves, correct.balanced⟩

def listenerRollsBack : Transaction :=
  .run true [] [] .commit true [.run true [] [] .rollback true []]

theorem commit_denied_by_listener : ¬ TransactionsCorrect
    (executeAll [listenerRollsBack] (opened false true)).log := by
  intro correct
  have answered := correct.returns 1 false (by decide)
  revert answered
  decide

end ThreadIpc.SqlDatabase
