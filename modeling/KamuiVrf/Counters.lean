import KamuiVrf.Dedup
import Mathlib.Algebra.Order.Field.Rat

namespace KamuiVrf

def Event.isSet : Event → Bool
  | .recorded .. => true
  | _ => false

def Event.isSuccess : Event → Bool
  | .submitted _ true => true
  | _ => false

-- `processedRequests.set` calls so far.
def setCalls (history : List Event) : Nat := history.countP Event.isSet

-- `submitFulfillment` calls so far that answered `success: true`.
def successfulSubmissions (history : List Event) : Nat := history.countP Event.isSuccess

@[simp] theorem setCalls_append (history events : List Event) :
    setCalls (history ++ events) = setCalls history + setCalls events := List.countP_append _ _ _

@[simp] theorem successfulSubmissions_append (history events : List Event) :
    successfulSubmissions (history ++ events) = successfulSubmissions history + successfulSubmissions events :=
  List.countP_append _ _ _

-- The counters are the ghost counts, and a submission not yet answered has been counted
-- as processed but not yet as fulfilled.
structure Counted (server : Server) : Prop where
  processed : server.stats.requestsProcessed = setCalls server.history
  fulfilled : server.stats.requestsFulfilled = successfulSubmissions server.history
  settling : server.stats.requestsFulfilled + (awaitsSettle server.history).toNat ≤ server.stats.requestsProcessed

-- The three counters `printStats` reports, each at least its earlier value.
def Stats.Grows (before after : Stats) : Prop :=
  before.requestsProcessed ≤ after.requestsProcessed ∧ before.requestsFulfilled ≤ after.requestsFulfilled ∧
    before.errors ≤ after.errors

theorem Stats.Grows.refl (stats : Stats) : stats.Grows stats := ⟨le_refl _,le_refl _,le_refl _⟩

theorem Stats.Grows.trans {first second third : Stats} (before : first.Grows second) (after : second.Grows third) :
    first.Grows third :=
  ⟨before.1.trans after.1,before.2.1.trans after.2.1,before.2.2.trans after.2.2⟩

theorem Change.grows {before after : Server} (change : Change before after) : before.stats.Grows after.stats := by
  cases change with
  | io request outcome => exact .refl _
  | processing account => exact .refl _
  | evict entry reading stale => exact .refl _
  | record fresh reading => simp [Stats.Grows]
  | settle success awaiting => simp [Stats.Grows]
  | countError => simp [Stats.Grows]
  | setRunning running => exact .refl _
  | setStartTime startTime => exact .refl _

theorem Moves.grows {before after : Server} (moves : Moves before after) : before.stats.Grows after.stats := by
  induction moves with
  | refl => exact .refl _
  | tail _ change ih => exact ih.trans change.grows

@[simp] theorem awaitsSettle_recordSubmission (server : Server) (key : Bytes) (info : ProcessedInfo) :
    awaitsSettle (server.recordSubmission key info).history = true := by
  rw [Server.recordSubmission_history,show [Event.recorded key info,.submitting key info.timestamp] =
    [.recorded key info] ++ [.submitting key info.timestamp] from rfl,← List.append_assoc,awaitsSettle_append]
  rfl

@[simp] theorem awaitsSettle_settle (server : Server) (key : Bytes) (success : Bool) :
    awaitsSettle (server.settle key success).history = false := by
  rw [Server.settle_history,awaitsSettle_append]
  rfl

namespace Counted

theorem initial (startTime : Nat) : Counted (initialServer startTime) := ⟨rfl,rfl,le_refl 0⟩

-- A change that leaves the counters alone and appends nothing counted, or only the
-- outcome of an awaited call.
theorem frame {before after : Server} (counted : Counted before) (stats : after.stats = before.stats)
    (events : List Event) (history : after.history = before.history ++ events)
    (sets : setCalls events = 0) (successes : successfulSubmissions events = 0)
    (settling : (awaitsSettle after.history).toNat ≤ (awaitsSettle before.history).toNat) : Counted after where
  processed := by rw [stats,history,setCalls_append,sets,counted.processed]; rfl
  fulfilled := by rw [stats,history,successfulSubmissions_append,successes,counted.fulfilled]; rfl
  settling := by have := counted.settling; rw [stats]; omega

theorem change {before after : Server} (counted : Counted before) (change : Change before after) : Counted after := by
  have settling := counted.settling
  cases change with
  | io request outcome => exact counted.frame rfl _ rfl rfl rfl (by simp [awaitsSettle_append])
  | processing account =>
    exact counted.frame rfl _ rfl rfl rfl (by simp [awaitsSettle_append,Event.isIo,Event.isSubmitting])
  | evict entry reading stale => exact counted.frame rfl [] (by simp) rfl rfl le_rfl
  | record fresh reading =>
    refine ⟨?_,?_,?_⟩
    · simp [counted.processed,setCalls,Event.isSet]
    · simp [counted.fulfilled,successfulSubmissions,Event.isSuccess]
    · simp only [awaitsSettle_recordSubmission,Server.recordSubmission_stats,Bool.toNat_true]
      omega
  | settle success awaiting =>
    simp only [awaiting,Bool.toNat_true] at settling
    refine ⟨?_,?_,?_⟩
    · simp [counted.processed,setCalls,Event.isSet]
    · cases success <;> simp [counted.fulfilled,successfulSubmissions,Event.isSuccess]
    · simp only [awaitsSettle_settle,Server.settle_stats,Bool.toNat_false]
      cases success <;> simp <;> omega
  | countError => exact ⟨counted.processed,counted.fulfilled,settling⟩
  | setRunning running => exact ⟨counted.processed,counted.fulfilled,settling⟩
  | setStartTime startTime => exact ⟨counted.processed,counted.fulfilled,settling⟩

theorem moves {before after : Server} (counted : Counted before) (moves : Moves before after) : Counted after := by
  induction moves with
  | refl => exact counted
  | tail _ change ih => exact ih.change change

end Counted

theorem successRate_bounds {stats : Stats} (within : stats.requestsFulfilled ≤ stats.requestsProcessed) :
    0 ≤ successRate stats ∧ successRate stats ≤ 100 := by
  unfold successRate
  split_ifs
  · have ratio : (stats.requestsFulfilled : ℚ) / stats.requestsProcessed ≤ 1 :=
      div_le_one_of_le₀ (by exact_mod_cast within) (Nat.cast_nonneg _)
    exact ⟨mul_nonneg (div_nonneg (Nat.cast_nonneg _) (Nat.cast_nonneg _)) (by norm_num),
      mul_le_of_le_one_left (by norm_num) ratio⟩
  · norm_num

-- In every reachable state the counters are the ghost counts of `processedRequests.set`
-- calls and of successful submissions, no step lowers them, and the reported rate is a
-- percentage.
theorem stats_counted {ctx : Context} {startTime : Nat} {control : Control}
    (reachable : Reachable ctx startTime control) :
    control.server.stats.requestsProcessed = setCalls control.server.history ∧
      control.server.stats.requestsFulfilled = successfulSubmissions control.server.history ∧
      (∀ next, Step ctx control next → control.server.stats.Grows next.server.stats) ∧
      control.server.stats.requestsFulfilled ≤ control.server.stats.requestsProcessed ∧
      0 ≤ successRate control.server.stats ∧ successRate control.server.stats ≤ 100 := by
  have counted := (Counted.initial startTime).moves (reachable_moves reachable)
  have within : control.server.stats.requestsFulfilled ≤ control.server.stats.requestsProcessed :=
    le_trans (Nat.le_add_right _ _) counted.settling
  exact ⟨counted.processed,counted.fulfilled,fun _ step => (step_moves reachable step).grows,within,
    successRate_bounds within⟩

theorem stats_counted_duplicate :
    let ctx : Context := ⟨[],[2],⟨"mangekyou",⟨"secret","cd"⟩⟩,3000,fun _ _ => [],fun _ => none⟩
    let control := (Control.advance ctx (duplicateEnumeration ⟨[1],requestDiscriminator ++ List.replicate 158 0⟩))^[12]
      (Control.initial 0)
    Reachable ctx 0 control ∧
      control.server.stats.requestsProcessed = setCalls control.server.history ∧
      control.server.stats.requestsFulfilled = successfulSubmissions control.server.history ∧
      (∀ next, Step ctx control next → control.server.stats.Grows next.server.stats) ∧
      control.server.stats.requestsFulfilled ≤ control.server.stats.requestsProcessed ∧
      0 ≤ successRate control.server.stats ∧ successRate control.server.stats ≤ 100 :=
  ⟨Reachable.iterate ..,stats_counted (Reachable.iterate ..)⟩

end KamuiVrf
