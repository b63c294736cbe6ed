import KamuiVrf.Scheduler

namespace KamuiVrf

def Event.reading : Event → Option Nat
  | .io .now now => some now
  | _ => none

-- The `Date.now()` readings of a history, oldest first.
def readings (history : List Event) : List Nat := history.filterMap Event.reading

def Event.isSubmitting : Event → Bool
  | .submitting .. => true
  | _ => false

-- A submission is marked and `submitFulfillment` has not answered yet: the last event
-- other than an awaited call's outcome is `submitting`.
def awaitsSettle (history : List Event) : Bool :=
  ((history.reverse.find? fun event => !event.isIo).map Event.isSubmitting).getD false

@[simp] theorem readings_append (history events : List Event) :
    readings (history ++ events) = readings history ++ readings events := List.filterMap_append _ _ _

theorem awaitsSettle_append (history : List Event) (event : Event) :
    awaitsSettle (history ++ [event]) = if event.isIo then awaitsSettle history else event.isSubmitting := by
  unfold awaitsSettle
  cases io : event.isIo <;> simp [io]

theorem awaitsSettle_append_io (history : List Event) {events : List Event} (io : ∀ event ∈ events, event.isIo) :
    awaitsSettle (history ++ events) = awaitsSettle history := by
  induction events generalizing history with
  | nil => simp
  | cons event rest ih =>
    rw [← List.singleton_append,← List.append_assoc,ih _ fun other inside => io other (List.mem_cons_of_mem _ inside),
      awaitsSettle_append,if_pos (io event (List.mem_cons_self _ _))]

-- Everything a stretch of the server's code between two awaits can do to its state,
-- with what that code checked first.
inductive Change : Server → Server → Prop
  | io {server : Server} (request : Request) (outcome : request.Outcome) :
      Change server (server.log (.io request outcome))
  | processing {server : Server} (account : Account) : Change server (server.log (.processing account))
  -- `isRequestPending`: an entry 10 minutes older than the reading just taken
  | evict {server : Server} {key : Bytes} {info : ProcessedInfo} {now : Nat}
      (entry : server.processedRequests key = some info) (reading : (readings server.history).getLast? = some now)
      (stale : ¬ (now : Int) - info.timestamp < 10 * 60 * 1000) : Change server (server.deleteProcessed key)
  -- `processRequestAccount`: a key with no entry, stamped with the reading just taken
  | record {server : Server} {key : Bytes} {info : ProcessedInfo} (fresh : server.processedRequests key = none)
      (reading : (readings server.history).getLast? = some info.timestamp) :
      Change server (server.recordSubmission key info)
  | settle {server : Server} {key : Bytes} (success : Bool) (awaiting : awaitsSettle server.history = true) :
      Change server (server.settle key success)
  | countError {server : Server} : Change server server.countError
  | setRunning {server : Server} (running : Bool) : Change server { server with isRunning := running }
  | setStartTime {server : Server} (startTime : Nat) :
      Change server { server with stats := { server.stats with startTime := startTime } }

def Moves : Server → Server → Prop := Relation.ReflTransGen Change

namespace Moves

theorem refl (server : Server) : Moves server server := Relation.ReflTransGen.refl

theorem single {before after : Server} (change : Change before after) : Moves before after :=
  Relation.ReflTransGen.single change

theorem tail {first second third : Server} (moves : Moves first second) (change : Change second third) :
    Moves first third :=
  Relation.ReflTransGen.tail moves change

theorem trans {first second third : Server} (before : Moves first second) (after : Moves second third) :
    Moves first third :=
  Relation.ReflTransGen.trans before after

instance : IsRefl Server Moves := ⟨refl⟩
instance : IsTrans Server Moves := ⟨fun _ _ _ => trans⟩

-- The history only grows.
theorem history_grows {before after : Server} (moves : Moves before after) : before.history <+: after.history := by
  induction moves with
  | refl => exact List.prefix_refl _
  | tail _ change ih =>
    refine ih.trans ?_
    cases change with
    | io request outcome => exact List.prefix_append _ _
    | processing account => exact List.prefix_append _ _
    | evict => exact List.prefix_refl _
    | record => simp
    | settle success => simp
    | countError => exact List.prefix_refl _
    | setRunning running => exact List.prefix_refl _
    | setStartTime startTime => exact List.prefix_refl _

-- Invariants of the server's state, derived once for every stretch of code: what each
-- change keeps, given a property of the history the run goes on to have.
theorem preserves {keep : List Event → Prop} {inv : Server → Prop}
    (keepPrefix : ∀ {history longer}, history <+: longer → keep longer → keep history)
    (preserved : ∀ {before after}, Change before after → keep after.history → inv before → inv after)
    {before after : Server} (moves : Moves before after) (kept : keep after.history) (holds : inv before) :
    inv after := by
  induction moves with
  | refl => exact holds
  | tail moves change ih =>
    exact preserved change kept (ih (keepPrefix (history_grows (single change)) kept))

end Moves

namespace Prog

theorem liftExcept_steps (outcome : Except JsValue α) (server : Server) :
    (liftExcept outcome server).Steps Moves server := by
  cases outcome <;> exact Moves.refl server

theorem perform_bind_steps {request : Request} {decode : request.Outcome → M α} {server : Server}
    (rest : ∀ outcome, (decode outcome (server.log (.io request outcome))).Steps Moves
      (server.log (.io request outcome))) :
    ((perform request >>= decode) server).Steps Moves server :=
  And.intro (Moves.refl server) fun outcome => Steps.widen (Moves.single (.io request outcome)) (rest outcome)

theorem execAsync_steps (command : String) (server : Server) : (execAsync command server).Steps Moves server :=
  perform_bind_steps fun outcome => liftExcept_steps outcome _

theorem getProgramAccountsCall_steps (programId : Bytes) (server : Server) :
    (getProgramAccountsCall programId server).Steps Moves server :=
  perform_bind_steps fun outcome => liftExcept_steps outcome _

theorem getLatestBlockhash_steps (server : Server) : (getLatestBlockhash server).Steps Moves server :=
  perform_bind_steps fun outcome => liftExcept_steps outcome _

theorem sendRawTransaction_steps (transaction : Transaction) (server : Server) :
    (sendRawTransaction transaction server).Steps Moves server :=
  perform_bind_steps fun outcome => liftExcept_steps outcome _

theorem confirmTransaction_steps (signature blockhash : String) (height : Nat) (server : Server) :
    (confirmTransaction signature blockhash height server).Steps Moves server :=
  perform_bind_steps fun outcome => liftExcept_steps outcome _

theorem sleep_steps (ms : Nat) (server : Server) : (sleep ms server).Steps Moves server :=
  perform_bind_steps fun _ => Moves.refl _

theorem logAndReturn_steps (value : α) (error : JsValue) (server : Server) :
    (logAndReturn value error server).Steps Moves server := by
  unfold logAndReturn readMessage
  split <;> exact Moves.refl server

theorem logAndRethrow_steps (error : JsValue) (server : Server) :
    (logAndRethrow error server : Prog α).Steps Moves server := by
  unfold logAndRethrow readMessage
  split <;> exact Moves.refl server

theorem generateProof_steps (cli : MangekyouCLIInterface) (input : Bytes) (server : Server) :
    (cli.generateProof input server).Steps Moves server := by
  refine Steps.handle (Steps.bind (execAsync_steps _ server) fun output after => ?_) logAndRethrow_steps
  cases parseProveOutput output.stdout <;> exact Moves.refl after

theorem verifyProof_steps (cli : MangekyouCLIInterface) (proof output publicKey : String) (input : Bytes)
    (server : Server) : (cli.verifyProof proof output publicKey input server).Steps Moves server :=
  Steps.handle (Steps.bind (execAsync_steps _ server) fun _ after => Moves.refl after) (logAndReturn_steps false)

theorem sendTransaction_steps (ctx : Context) (instruction : Instruction) (server : Server) :
    (sendTransaction ctx instruction server).Steps Moves server := by
  refine Steps.bind (getLatestBlockhash_steps server) fun latest after => ?_
  cases ctx.serializeError ⟨[instruction],latest.blockhash,ctx.oraclePubkey⟩
  · exact Steps.bind (sendRawTransaction_steps _ after) fun signature sent =>
      Steps.bind (getLatestBlockhash_steps sent) fun current fetched =>
        Steps.bind (confirmTransaction_steps _ _ _ fetched) fun _ confirmed => Moves.refl confirmed
  · exact Moves.refl after

theorem submitFulfillment_steps (ctx : Context) (key : Bytes) (proofResult : ProofResult) (requestId : Bytes)
    (poolId requestIndex : Nat) (subscriptionPDA : Bytes) (server : Server) :
    (submitFulfillment ctx key proofResult requestId poolId requestIndex subscriptionPDA server).Steps Moves server :=
  Steps.handle (Steps.bind (liftExcept_steps _ server) fun instruction after => sendTransaction_steps ctx instruction after)
    (logAndReturn_steps false)

theorem recordAndSubmit_steps (ctx : Context) (account : Account) (request : ParsedRequest)
    (proofResult : ProofResult) {server : Server} (fresh : server.processedRequests account.pubkey = none) :
    (recordAndSubmit ctx account request proofResult server).Steps Moves server := by
  refine And.intro (Moves.refl server) fun timestamp => ?_
  have recorded : Moves server ((server.log (.io .now timestamp)).recordSubmission account.pubkey
      (processedInfo timestamp proofResult request)) :=
    (Moves.single (.io .now timestamp)).tail (.record fresh (by simp [readings,Event.reading,processedInfo]))
  simp only [ret_bind,M.bind_apply,recordProcessed,modifyServer_apply,emit_apply]
  refine Steps.widen recorded (Steps.bind_wp (submitFulfillment_steps ..) (submitFulfillment_frame ..) ?_)
  intro success after logged
  have awaiting : awaitsSettle after.history = true := by
    obtain ⟨-,-,-,outcomes,history,io⟩ := logged
    rw [history,awaitsSettle_append_io _ io]
    simp [awaitsSettle,Event.isSubmitting,Event.isIo]
  cases success
  · exact Moves.single (.settle false awaiting)
  · exact Moves.single (.settle true awaiting)

theorem fulfillRequest_steps (ctx : Context) (account : Account) {server : Server}
    (fresh : server.processedRequests account.pubkey = none) :
    (fulfillRequest ctx account server).Steps Moves server := by
  unfold fulfillRequest
  split_ifs
  · exact Moves.refl server
  · exact Moves.refl server
  cases parseRequestAccount account.data with
  | error error => exact Moves.refl server
  | ok request =>
    simp only [liftExcept_ok,M.bind_apply,M.pure_apply,ret_bind]
    refine Steps.bind_wp (generateProof_steps ..) (MangekyouCLIInterface.generateProof_frame ..)
      fun proofResult proved provedLog => Steps.bind_wp (verifyProof_steps ..)
        (MangekyouCLIInterface.verifyProof_frame ..) fun isValid verified verifiedLog => ?_
    cases isValid
    · exact Moves.refl verified
    · exact recordAndSubmit_steps ctx account request proofResult (by rw [verifiedLog.1,provedLog.1,fresh])

theorem processRequestAccount_steps (ctx : Context) (account : Account) (server : Server) :
    (processRequestAccount ctx account server).Steps Moves server := by
  refine Steps.widen (Moves.single (.processing account)) ?_
  simp only [processRequestAccount,M.bind_apply,emit_apply,getServer_apply,ret_bind,tryCatch_apply]
  split
  · exact Moves.refl _
  · next fresh =>
    exact Steps.handle (fulfillRequest_steps ctx account (Option.not_isSome_iff_eq_none.mp fresh)) logAndRethrow_steps

theorem processAccount_steps (ctx : Context) (account : Account) (server : Server) :
    (processAccount ctx account server).Steps Moves server := by
  refine Steps.handle (Steps.bind (processRequestAccount_steps ctx account server) fun processed after => ?_)
    fun error after => ?_
  · cases processed
    · exact Moves.refl after
    · exact sleep_steps 1000 after
  · unfold readMessage
    split
    · exact Moves.refl after
    · exact Moves.single .countError

theorem processAccounts_steps (ctx : Context) (accounts : List Account) (server : Server) :
    (processAccounts ctx accounts server).Steps Moves server := by
  induction accounts generalizing server with
  | nil => exact Moves.refl server
  | cons account rest ih => exact Steps.bind (processAccount_steps ..) fun _ after => ih after

theorem checkRequestStatus_steps (data : Bytes) (server : Server) :
    (checkRequestStatus data server).Steps Moves server := by
  unfold checkRequestStatus
  cases requestStatusPending data
  · exact logAndReturn_steps false _ server
  · exact Moves.refl server

theorem isRequestPending_steps (account : Account) (server : Server) :
    (isRequestPending account server).Steps Moves server := by
  simp only [isRequestPending,M.bind_apply,getServer_apply,ret_bind]
  cases entry : server.processedRequests account.pubkey with
  | none => exact checkRequestStatus_steps ..
  | some info =>
    refine And.intro (Moves.refl server) fun now => ?_
    dsimp only [ret_bind]
    split
    · exact Moves.single (.io .now now)
    · next stale =>
      exact Steps.widen ((Moves.single (.io .now now)).tail (.evict entry (by simp [readings,Event.reading]) stale))
        (checkRequestStatus_steps ..)

theorem scanAccount_steps (account : Account) (server : Server) : (scanAccount account server).Steps Moves server := by
  unfold scanAccount
  split_ifs
  · exact Moves.refl server
  · exact isRequestPending_steps account server
  · exact Moves.refl server

theorem scanAccounts_steps (accounts : List Account) (server : Server) :
    (scanAccounts accounts server).Steps Moves server := by
  induction accounts generalizing server with
  | nil => exact Moves.refl server
  | cons account rest ih =>
    exact Steps.bind (Steps.handle (scanAccount_steps account server) (logAndReturn_steps false))
      fun _ after => Steps.bind (ih after) fun _ scanned => Moves.refl scanned

theorem monitorAndProcess_steps (ctx : Context) (server : Server) :
    (monitorAndProcess ctx server).Steps Moves server := by
  refine Steps.handle (Steps.bind (Steps.bind (getProgramAccountsCall_steps _ server) fun accounts fetched =>
    scanAccounts_steps accounts fetched) fun accounts scanned => ?_) logAndRethrow_steps
  split
  · exact Moves.refl scanned
  · exact processAccounts_steps ..

theorem monitoringTurn_steps (ctx : Context) (server : Server) : (monitoringTurn ctx server).Steps Moves server := by
  refine Steps.handle (Steps.bind (monitorAndProcess_steps ctx server) fun _ after => sleep_steps _ after)
    fun error after => ?_
  unfold readMessage
  split
  · exact Moves.refl after
  · exact Steps.widen (Moves.single .countError) (sleep_steps 5000 after.countError)

theorem start_steps (server : Server) : (start server).Steps Moves server :=
  Steps.widen (Moves.single (.setRunning true))
    (And.intro (Moves.refl _) fun now => (Moves.single (.io .now now)).tail (.setStartTime now))

end Prog

-- A state of the process with the code that can still run from it: every state that
-- code passes through is reached from the one before by the changes above.
def Control.Traced (origin : Server) : Control → Prop
  | .running program => Moves origin program.current ∧ program.Steps Moves program.current
  | .exited _ server => Moves origin server

theorem Control.Traced.moves {origin : Server} {control : Control} (traced : control.Traced origin) :
    Moves origin control.server := by
  cases control with
  | running program => exact traced.1
  | exited code server => exact traced

theorem Control.Traced.step {ctx : Context} {origin : Server} {control next : Control} (traced : control.Traced origin)
    (step : Step ctx control next) : next.Traced origin ∧ Moves control.server next.server := by
  cases step with
  | answer outcome =>
    have steps := traced.2.2 outcome
    exact ⟨⟨traced.1.trans steps.first,steps.restart⟩,steps.first⟩
  | signal yields => exact ⟨traced.1.tail (.setRunning false),Moves.single (.setRunning false)⟩
  | @turn server running =>
    have steps := Prog.monitoringTurn_steps ctx server
    exact ⟨⟨traced.1.trans steps.first,steps.restart⟩,steps.first⟩
  | finish stopped => exact ⟨traced.1,Moves.refl _⟩
  | crash => exact ⟨traced.1,Moves.refl _⟩

theorem reachable_traced {ctx : Context} {startTime : Nat} {control : Control}
    (reachable : Reachable ctx startTime control) : control.Traced (initialServer startTime) := by
  induction reachable with
  | initial =>
    have steps := Prog.start_steps (initialServer startTime)
    exact ⟨steps.first,steps.restart⟩
  | step _ step ih => exact (ih.step step).1

-- Every state of a run is reached from the first by the changes above, and so is each
-- state from the one before it.
theorem reachable_moves {ctx : Context} {startTime : Nat} {control : Control}
    (reachable : Reachable ctx startTime control) : Moves (initialServer startTime) control.server :=
  (reachable_traced reachable).moves

theorem step_moves {ctx : Context} {startTime : Nat} {control next : Control}
    (reachable : Reachable ctx startTime control) (step : Step ctx control next) : Moves control.server next.server :=
  ((reachable_traced reachable).step step).2

end KamuiVrf
