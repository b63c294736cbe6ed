import KamuiVrf.Trace

namespace KamuiVrf

def Event.submissionStamp (key : Bytes) : Event → Option Nat
  | .submitting pubkey timestamp => if pubkey = key then some timestamp else none
  | _ => none

-- The entry timestamps `submitFulfillment` was called with for `key`, oldest first.
def submissionStamps (key : Bytes) (history : List Event) : List Nat := history.filterMap (Event.submissionStamp key)

-- The run's `Date.now()` readings never go back.
def ClockMonotone (history : List Event) : Prop := (readings history).Pairwise (· ≤ ·)

instance (history : List Event) : Decidable (ClockMonotone history) :=
  inferInstanceAs (Decidable ((readings history).Pairwise _))

@[simp] theorem submissionStamps_append (key : Bytes) (history events : List Event) :
    submissionStamps key (history ++ events) = submissionStamps key history ++ submissionStamps key events :=
  List.filterMap_append _ _ _

@[simp] theorem submissionStamps_io (key : Bytes) (request : Request) (outcome : request.Outcome) :
    submissionStamps key [.io request outcome] = [] := rfl

theorem ClockMonotone.of_prefix {history longer : List Event} (grows : history <+: longer)
    (clock : ClockMonotone longer) : ClockMonotone history :=
  clock.sublist (grows.sublist.filterMap _)

-- Under a clock that never goes back, the latest reading is the largest.
theorem ClockMonotone.le_last {history : List Event} (clock : ClockMonotone history) {last : Nat}
    (isLast : (readings history).getLast? = some last) {reading : Nat} (read : reading ∈ readings history) :
    reading ≤ last := by
  obtain ⟨earlier,split⟩ := List.getLast?_eq_some_iff.mp isLast
  unfold ClockMonotone at clock
  rw [split,List.pairwise_append] at clock
  rw [split,List.mem_append,List.mem_singleton] at read
  rcases read with early | rfl
  · exact clock.2.2 reading early last (List.mem_singleton_self last)
  · exact le_refl reading

-- The dedup map's invariant over a run: the submissions of a key are a window apart, a
-- key's entry is no older than any submission of it, and a key without an entry was last
-- submitted a window before some clock reading.
structure Spaced (server : Server) : Prop where
  spaced : ∀ key, (submissionStamps key server.history).Pairwise fun earlier later => earlier + 10 * 60 * 1000 ≤ later
  current : ∀ key info, server.processedRequests key = some info →
    ∀ stamp ∈ submissionStamps key server.history, stamp ≤ info.timestamp
  released : ∀ key, server.processedRequests key = none →
    ∀ stamp ∈ submissionStamps key server.history, ∃ reading ∈ readings server.history, stamp + 10 * 60 * 1000 ≤ reading

namespace Spaced

theorem initial (startTime : Nat) : Spaced (initialServer startTime) :=
  ⟨fun _ => .nil,(fun _ _ absent => nomatch absent),fun _ _ _ submitted => nomatch submitted⟩

-- A change that keeps the entries and adds no submission, and forgets no reading.
theorem frame {before after : Server} (spaced : Spaced before)
    (entries : after.processedRequests = before.processedRequests)
    (stamps : ∀ key, submissionStamps key after.history = submissionStamps key before.history)
    (read : readings before.history <+: readings after.history) : Spaced after where
  spaced key := stamps key ▸ spaced.spaced key
  current key info entry := stamps key ▸ spaced.current key info (entries ▸ entry)
  released key entry stamp submitted := by
    obtain ⟨reading,inside,late⟩ := spaced.released key (entries ▸ entry) stamp (stamps key ▸ submitted)
    exact ⟨reading,read.subset inside,late⟩

theorem log {server : Server} (spaced : Spaced server) {event : Event}
    (unstamped : ∀ key, submissionStamps key [event] = []) : Spaced (server.log event) :=
  spaced.frame rfl (fun key => by simp [unstamped key]) (by simp)

-- An evicted entry was a window older than the reading just taken, and no submission of
-- the key is newer than the entry.
theorem evict {server : Server} (spaced : Spaced server) {key : Bytes} {info : ProcessedInfo} {now : Nat}
    (entry : server.processedRequests key = some info) (reading : (readings server.history).getLast? = some now)
    (stale : ¬ (now : Int) - info.timestamp < 10 * 60 * 1000) : Spaced (server.deleteProcessed key) where
  spaced := spaced.spaced
  current other found entry := by
    by_cases same : other = key
    · simp [same] at entry
    · simp only [Server.deleteProcessed_processedRequests,same,if_false] at entry
      exact spaced.current other found entry
  released other absent stamp submitted := by
    by_cases same : other = key
    · subst same
      have older := spaced.current other info entry stamp submitted
      exact ⟨now,List.mem_of_getLast?_eq_some reading,by omega⟩
    · simp only [Server.deleteProcessed_processedRequests,same,if_false] at absent
      exact spaced.released other absent stamp submitted

-- A key is recorded only without an entry, stamped with the latest reading: by then every
-- earlier submission of it is a window old.
theorem record {server : Server} (spaced : Spaced server) {key : Bytes} {info : ProcessedInfo}
    (fresh : server.processedRequests key = none) (reading : (readings server.history).getLast? = some info.timestamp)
    (clock : ClockMonotone (server.recordSubmission key info).history) :
    Spaced (server.recordSubmission key info) := by
  have clock : ClockMonotone server.history := clock.of_prefix (by simp)
  have aged : ∀ stamp ∈ submissionStamps key server.history, stamp + 10 * 60 * 1000 ≤ info.timestamp := by
    intro stamp submitted
    obtain ⟨earlier,inside,late⟩ := spaced.released key fresh stamp submitted
    exact le_trans late (clock.le_last reading inside)
  have stamps : ∀ other, submissionStamps other (server.recordSubmission key info).history =
      submissionStamps other server.history ++ if other = key then [info.timestamp] else [] := by
    intro other
    rcases eq_or_ne other key with rfl | same
    · simp [submissionStamps,Event.submissionStamp]
    · simp [submissionStamps,Event.submissionStamp,same,same.symm]
  have read : readings (server.recordSubmission key info).history = readings server.history := by
    simp [readings,Event.reading]
  refine ⟨fun other => ?_,fun other found entry => ?_,fun other absent => ?_⟩
  · rw [stamps]
    split_ifs with same
    · subst same
      exact List.pairwise_append.mpr ⟨spaced.spaced other,List.pairwise_singleton _ _,fun stamp submitted _ last =>
        List.mem_singleton.mp last ▸ aged stamp submitted⟩
    · simpa using spaced.spaced other
  · rw [stamps]
    rw [Server.recordSubmission_processedRequests] at entry
    split_ifs at entry ⊢ with same
    · cases entry
      intro stamp submitted
      rcases List.mem_append.mp submitted with early | last
      · exact le_trans (Nat.le_add_right _ _) (aged stamp (same ▸ early))
      · exact (List.mem_singleton.mp last).le
    · simpa using spaced.current other found entry
  · rw [Server.recordSubmission_processedRequests] at absent
    split_ifs at absent with same
    rw [stamps,read,if_neg same,List.append_nil]
    exact spaced.released other absent

-- What one stretch of code between two awaits keeps, for a run whose clock never goes back.
theorem change {before after : Server} (spaced : Spaced before) (change : Change before after)
    (clock : ClockMonotone after.history) : Spaced after := by
  cases change with
  | io request outcome => exact spaced.log fun _ => rfl
  | processing account => exact spaced.log fun _ => rfl
  | evict entry reading stale => exact spaced.evict entry reading stale
  | record fresh reading => exact spaced.record fresh reading clock
  | settle success awaiting =>
    refine spaced.frame (by simp) (fun key => ?_) (by simp [readings,Event.reading])
    simp [submissionStamps,Event.submissionStamp]
  | countError => exact spaced.frame rfl (fun _ => rfl) (List.prefix_refl _)
  | setRunning running => exact spaced.frame rfl (fun _ => rfl) (List.prefix_refl _)
  | setStartTime startTime => exact spaced.frame rfl (fun _ => rfl) (List.prefix_refl _)

theorem moves {before after : Server} (spaced : Spaced before) (moves : Moves before after)
    (clock : ClockMonotone after.history) : Spaced after :=
  Moves.preserves (fun grows clock => clock.of_prefix grows) (fun change clock spaced => spaced.change change clock)
    moves clock spaced

end Spaced

-- An enumeration that names the request twice, a CLI that proves and verifies every input,
-- a ledger that confirms every transaction, and a clock that advances with every event.
def duplicateEnumeration (account : Account) : Server → (request : Request) → request.Outcome :=
  fun server request =>
    match request with
    | .getProgramAccounts _ => Except.ok [account,account]
    | .exec _ => Except.ok ⟨"Proof: ab\nOutput: cd",""⟩
    | .getLatestBlockhash => Except.ok ⟨"hash",100⟩
    | .sendRawTransaction _ => Except.ok "sig"
    | .confirmTransaction .. => Except.ok ⟨none⟩
    | .sleep _ => ()
    | .now => 600000 * server.history.length

end KamuiVrf
