import KamuiVrf.Trace

namespace KamuiVrf

theorem Moves.appended {before after : Server} {event : Event} (moves : Moves (before.log event) after) :
    ∃ rest, after.history = before.history ++ event :: rest := by
  obtain ⟨rest,grown⟩ := moves.history_grows
  exact ⟨rest,by simp [← grown]⟩

-- `processRequestAccount` rethrows from its catch only after reading `error.message`, so
-- what escapes it is never `null` or `undefined`.
theorem processRequestAccount_rethrows (ctx : Context) (account : Account) (server : Server) :
    (processRequestAccount ctx account server).wp (fun _ _ => True)
      (fun _ after => Moves (server.log (.processing account)) after)
      (fun error after => error.isNullish = false ∧ Moves (server.log (.processing account)) after) := by
  rw [Prog.wp_processRequestAccount]
  split
  · exact Moves.refl _
  · next fresh =>
    refine Prog.wp_mono (@Prog.fulfillRequest_steps ctx account (server.log (.processing account))
      (Option.not_isSome_iff_eq_none.mp fresh)).wp_grows
      (fun _ _ _ => trivial) (fun _ _ => id) fun error _ moves => ⟨?_,moves⟩
    split <;> simp_all

-- One iteration of the loop starts `processRequestAccount` and never throws.
theorem processAccount_logged (ctx : Context) (account : Account) (server : Server) :
    (processAccount ctx account server).wp (fun _ _ => True)
      (fun _ after => ∃ rest, after.history = server.history ++ .processing account :: rest) (fun _ _ => False) := by
  rw [Prog.wp_processAccount]
  refine Prog.wp_mono (processRequestAccount_rethrows ctx account server) (fun _ _ _ => trivial) ?_ ?_
  · intro processed after moves
    obtain ⟨rest,history⟩ := moves.appended
    cases processed
    · exact ⟨rest,history⟩
    · exact ⟨trivial,rest ++ [.io (.sleep 1000) ()],by simp [history]⟩
  · rintro error after ⟨thrown,moves⟩
    rw [thrown,if_neg Bool.false_ne_true]
    exact moves.appended

-- The loop calls `processRequestAccount` on every account, in order, whatever happened
-- to the ones before it.
theorem processAccounts_logged (ctx : Context) (accounts : List Account) (server : Server) :
    (processAccounts ctx accounts server).wp (fun _ _ => True)
      (fun _ after => ∃ rest, after.history = server.history ++ rest ∧ (accounts.map Event.processing).Sublist rest)
      (fun _ _ => False) := by
  induction accounts generalizing server with
  | nil => exact ⟨[],by simp,.slnil⟩
  | cons account others ih =>
    rw [Prog.wp_processAccounts_cons]
    refine Prog.wp_mono (processAccount_logged ctx account server) (fun _ _ _ => trivial) ?_ (fun _ _ => id)
    rintro - middle ⟨first,history⟩
    refine Prog.wp_mono (ih middle) (fun _ _ _ => trivial) ?_ (fun _ _ => id)
    rintro _ after ⟨rest,history₂,sub⟩
    exact ⟨.processing account :: (first ++ rest),by simp [history₂,history],
      (sub.trans (List.sublist_append_right first rest)).cons₂ _⟩

-- `monitorAndProcess` rejects only when the enumeration does, with what its catch makes
-- of that rejection; otherwise it processes every account the scan returned.
theorem monitorAndProcess_processes (ctx : Context) (server : Server) :
    (monitorAndProcess ctx server).wp (fun _ _ => True)
      (fun _ after => ∃ accounts pending scanned rest,
        Scanned (server.log (.io (.getProgramAccounts ctx.vrfProgramId) (Except.ok accounts))) accounts pending scanned ∧
        after.history = scanned.history ++ rest ∧ (pending.map Event.processing).Sublist rest)
      (fun error after => ∃ rejection,
        after.history = server.history ++ [.io (.getProgramAccounts ctx.vrfProgramId) (Except.error rejection)] ∧
        error = if rejection.isNullish then readMessageError else rejection) := by
  rw [Prog.wp_monitorAndProcess]
  refine Prog.wp_mono (getPendingRequestAccounts_examines ctx server) (fun _ _ _ => trivial) ?_
    fun rejection _ history => ⟨rejection,history,rfl⟩
  rintro pending middle ⟨accounts,scanned⟩
  split
  · next empty => exact ⟨accounts,pending,middle,[],scanned,by simp,by simp [List.eq_nil_of_length_eq_zero empty]⟩
  · refine Prog.wp_mono (processAccounts_logged ctx pending middle) (fun _ _ _ => trivial) ?_ (fun _ _ => False.elim)
    rintro _ after ⟨rest,history,sub⟩
    exact ⟨accounts,pending,middle,rest,scanned,history,sub⟩

-- A turn of the `while` loop never throws: what reaches its catch is never nullish.
theorem monitoringTurn_contained (ctx : Context) (server : Server) :
    (monitoringTurn ctx server).wp (fun _ _ => True) (fun _ _ => True) (fun _ _ => False) := by
  rw [Prog.wp_monitoringTurn]
  refine Prog.wp_mono (monitorAndProcess_processes ctx server) (fun _ _ _ => trivial) (fun _ _ _ => ⟨trivial,trivial⟩) ?_
  rintro _ _ ⟨rejection,-,rfl⟩
  split <;> simp_all

theorem start_contained (server : Server) : (start server).wp (fun _ _ => True) (fun _ _ => True) (fun _ _ => False) :=
  ⟨trivial,fun _ => trivial⟩

-- What every state of the process satisfies: the code still to run throws nothing, and
-- the process has exited, if at all, with code 0 after `isRunning` was cleared.
def Control.Contained : Control → Prop
  | .running program => program.wp (fun _ _ => True) (fun _ _ => True) (fun _ _ => False)
  | .exited code server => code = 0 ∧ server.isRunning = false

theorem Control.Contained.step {ctx : Context} {control next : Control} (contained : control.Contained)
    (step : Step ctx control next) : next.Contained := by
  cases step with
  | answer outcome => exact contained.2 outcome
  | signal yields => exact ⟨rfl,rfl⟩
  | turn running => exact monitoringTurn_contained ctx _
  | finish stopped => exact ⟨rfl,stopped⟩
  | crash => exact contained.elim

theorem reachable_contained {ctx : Context} {startTime : Nat} {control : Control}
    (reachable : Reachable ctx startTime control) : control.Contained := by
  induction reachable with
  | initial => exact start_contained _
  | step _ step ih => exact ih.step step

-- Whatever the collaborators resolve or reject with: every enumerated account has its scan
-- turn, the loop processes every account the scan returned, and no rejection ends
-- the `while` loop: the process leaves it only with code 0 once `isRunning` is false.
theorem faults_contained :
    (∀ ctx server, (getPendingRequestAccounts ctx server).wp (fun _ _ => True)
      (fun pending after => ∃ accounts,
        Scanned (server.log (.io (.getProgramAccounts ctx.vrfProgramId) (Except.ok accounts))) accounts pending after)
      (fun error after =>
        after.history = server.history ++ [.io (.getProgramAccounts ctx.vrfProgramId) (Except.error error)])) ∧
    (∀ ctx server, (monitorAndProcess ctx server).wp (fun _ _ => True)
      (fun _ after => ∃ accounts pending scanned rest,
        Scanned (server.log (.io (.getProgramAccounts ctx.vrfProgramId) (Except.ok accounts))) accounts pending scanned ∧
        after.history = scanned.history ++ rest ∧ (pending.map Event.processing).Sublist rest)
      (fun error after => ∃ rejection,
        after.history = server.history ++ [.io (.getProgramAccounts ctx.vrfProgramId) (Except.error rejection)] ∧
        error = if rejection.isNullish then readMessageError else rejection)) ∧
    (∀ ctx startTime control, Reachable ctx startTime control →
      (∀ error server, control ≠ .running (.raise error server)) ∧
      ∀ code server, control = .exited code server → code = 0 ∧ server.isRunning = false) := by
  refine ⟨getPendingRequestAccounts_examines,monitorAndProcess_processes,fun ctx startTime control reachable => ?_⟩
  have contained := reachable_contained reachable
  refine ⟨?_,?_⟩
  · rintro error server rfl
    exact contained
  · rintro code server rfl
    exact contained

end KamuiVrf
