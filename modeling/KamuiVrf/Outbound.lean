import KamuiVrf.Scheduler

namespace KamuiVrf

-- Every call `program` makes, from any state and whatever the answers, satisfies `allowed`.
def Only (allowed : Request → Prop) (program : M α) : Prop :=
  ∀ server, (program server).wp (fun _ request => allowed request) (fun _ _ => True) (fun _ _ => True)

namespace Only

variable {allowed : Request → Prop}

theorem pure (value : α) : Only allowed (pure value) := fun _ => trivial

theorem throwJs (error : JsValue) : Only allowed (throwJs error : M α) := fun _ => trivial

theorem modify (change : Server → Server) : Only allowed (modifyServer change) := fun _ => trivial

theorem perform {request : Request} (admitted : allowed request) : Only allowed (perform request) :=
  fun _ => ⟨admitted,fun _ => trivial⟩

theorem bind {program : M α} {next : α → M β} (first : Only allowed program)
    (rest : ∀ value, Only allowed (next value)) : Only allowed (program >>= next) :=
  fun server => (Prog.wp_bind _ _).mpr
    (Prog.wp_mono (first server) (fun _ _ => id) (fun value after _ => rest value after) fun _ _ => id)

theorem tryCatch {body : M α} {handler : JsValue → M α} (first : Only allowed body)
    (rest : ∀ error, Only allowed (handler error)) : Only allowed (tryCatch body handler) :=
  fun server => (Prog.wp_handle _ _).mpr
    (Prog.wp_mono (first server) (fun _ _ => id) (fun _ _ => id) fun error after _ => rest error after)

theorem read {next : Server → M α} (rest : ∀ server, Only allowed (next server)) : Only allowed (getServer >>= next) :=
  fun server => rest server server

theorem liftExcept (outcome : Except JsValue α) : Only allowed (liftExcept outcome) := by
  cases outcome
  · exact throwJs _
  · exact pure _

-- Code that goes on with the value of an `Except` only where it is `ok`.
theorem liftBind {outcome : Except JsValue α} {next : α → M β} (rest : ∀ value, outcome = .ok value → Only allowed (next value)) :
    Only allowed (KamuiVrf.liftExcept outcome >>= next) := by
  cases outcome with
  | error error => exact fun _ => trivial
  | ok value => exact fun server => rest value rfl server

theorem readMessage (error : JsValue) : Only allowed (readMessage error) := by
  unfold KamuiVrf.readMessage
  split
  · exact throwJs _
  · exact pure _

theorem logAndRethrow (error : JsValue) : Only allowed (logAndRethrow error : M α) :=
  (readMessage error).bind fun _ => throwJs error

theorem logAndReturn (value : α) (error : JsValue) : Only allowed (logAndReturn value error) :=
  (readMessage error).bind fun _ => pure value

end Only

-- The calls the monitoring loop may make with its configuration: the VRF program's accounts,
-- the configured CLI's prove and verify commands on a 32-byte seed, transactions of one
-- `fulfill_randomness` instruction to the VRF program that only the oracle signs and pays,
-- and its three sleeps.
def Request.Allowed (ctx : Context) : Request → Prop
  | .getProgramAccounts programId => programId = ctx.vrfProgramId
  | .exec command => ∃ seed : Bytes, seed.length = 32 ∧ (command = ctx.cli.proveCommand (toHex seed) ∨
      ∃ proof output, command = ctx.cli.verifyCommand proof output ctx.cli.getPublicKey (toHex seed))
  | .getLatestBlockhash => True
  | .sendRawTransaction transaction => transaction.feePayer = ctx.oraclePubkey ∧ ∃ instruction,
      transaction.instructions = [instruction] ∧ instruction.programId = ctx.vrfProgramId ∧
      instruction.keys.filter (·.isSigner) = [⟨ctx.oraclePubkey,true,true⟩] ∧
      ∃ proof requestId poolId requestIndex,
        fulfillData (fromHex proof) (fromHex ctx.cli.getPublicKey) requestId poolId requestIndex = .ok instruction.data
  | .confirmTransaction .. => True
  | .sleep ms => ms = 1000 ∨ ms = ctx.pollingInterval ∨ ms = 5000
  | .now => True

namespace Only

variable (ctx : Context)

theorem dateNow : Only (Request.Allowed ctx) dateNow := perform trivial

theorem getProgramAccountsCall : Only (Request.Allowed ctx) (getProgramAccountsCall ctx.vrfProgramId) :=
  (perform (show Request.Allowed ctx (.getProgramAccounts ctx.vrfProgramId) from rfl)).bind liftExcept

theorem execAsync {command : String} (admitted : Request.Allowed ctx (.exec command)) :
    Only (Request.Allowed ctx) (execAsync command) :=
  (perform admitted).bind liftExcept

theorem getLatestBlockhash : Only (Request.Allowed ctx) getLatestBlockhash :=
  (perform (show Request.Allowed ctx .getLatestBlockhash from trivial)).bind liftExcept

theorem sendRawTransaction {transaction : Transaction} (admitted : Request.Allowed ctx (.sendRawTransaction transaction)) :
    Only (Request.Allowed ctx) (sendRawTransaction transaction) :=
  (perform admitted).bind liftExcept

theorem confirmTransaction (signature blockhash : String) (height : Nat) :
    Only (Request.Allowed ctx) (confirmTransaction signature blockhash height) :=
  (perform (show Request.Allowed ctx (.confirmTransaction signature blockhash height) from trivial)).bind liftExcept

theorem sleep {ms : Nat} (admitted : ms = 1000 ∨ ms = ctx.pollingInterval ∨ ms = 5000) :
    Only (Request.Allowed ctx) (sleep ms) :=
  (perform (show Request.Allowed ctx (.sleep ms) from admitted)).bind fun _ => pure ()

theorem generateProof {input : Bytes} (sized : input.length = 32) : Only (Request.Allowed ctx) (ctx.cli.generateProof input) := by
  refine tryCatch ((execAsync ctx ⟨input,sized,.inl rfl⟩).bind fun result => ?_) logAndRethrow
  split
  · exact pure _
  · exact throwJs _

theorem verifyProof (proof output : String) {input : Bytes} (sized : input.length = 32) :
    Only (Request.Allowed ctx) (ctx.cli.verifyProof proof output ctx.cli.getPublicKey input) :=
  tryCatch ((execAsync ctx ⟨input,sized,.inr ⟨proof,output,rfl⟩⟩).bind fun _ => pure true) (logAndReturn false)

-- The one transaction `sendTransaction` sends carries the instruction it is given.
theorem sendTransaction {instruction : Instruction} (program : instruction.programId = ctx.vrfProgramId)
    (signers : instruction.keys.filter (·.isSigner) = [⟨ctx.oraclePubkey,true,true⟩])
    (payload : ∃ proof requestId poolId requestIndex,
      fulfillData (fromHex proof) (fromHex ctx.cli.getPublicKey) requestId poolId requestIndex = .ok instruction.data) :
    Only (Request.Allowed ctx) (sendTransaction ctx instruction) := by
  refine (getLatestBlockhash ctx).bind fun latest => ?_
  dsimp only
  split
  · exact throwJs _
  · exact (sendRawTransaction ctx ⟨rfl,instruction,rfl,program,signers,payload⟩).bind fun _ =>
      (getLatestBlockhash ctx).bind fun _ => (confirmTransaction ctx _ _ _).bind fun _ => pure _

theorem submitFulfillment (key : Bytes) (proofResult : ProofResult) (requestId : Bytes) (poolId requestIndex : Nat)
    (subscriptionPDA : Bytes) :
    Only (Request.Allowed ctx) (submitFulfillment ctx key proofResult requestId poolId requestIndex subscriptionPDA) := by
  refine tryCatch (liftBind fun instruction created => ?_) (logAndReturn false)
  obtain ⟨laid,program,keys⟩ := createFulfillmentInstruction_ok created
  exact sendTransaction ctx program (by rw [keys]; rfl) ⟨_,_,_,_,laid⟩

theorem recordAndSubmit (account : Account) (request : ParsedRequest) (proofResult : ProofResult) :
    Only (Request.Allowed ctx) (recordAndSubmit ctx account request proofResult) := by
  refine (dateNow ctx).bind fun timestamp => (modify _).bind fun _ => (modify _).bind fun _ => (modify _).bind fun _ =>
    (submitFulfillment ctx _ _ _ _ _ _).bind fun success => (modify _).bind fun _ => ?_
  split
  · exact (modify _).bind fun _ => pure true
  · exact pure false

theorem fulfillRequest (account : Account) : Only (Request.Allowed ctx) (fulfillRequest ctx account) := by
  unfold KamuiVrf.fulfillRequest
  dsimp only
  split_ifs
  · exact pure _
  · exact pure _
  · refine liftBind fun request parsed => ?_
    obtain ⟨-,seed,long⟩ := parseRequestAccount_ok parsed
    have sized : request.seed.length = 32 := by rw [seed,length_slice]; omega
    refine (generateProof ctx sized).bind fun proofResult => (verifyProof ctx _ _ sized).bind fun isValid => ?_
    split
    · exact pure _
    · exact recordAndSubmit ctx _ _ _

theorem processRequestAccount (account : Account) : Only (Request.Allowed ctx) (processRequestAccount ctx account) := by
  refine (modify _).bind fun _ => read fun server => ?_
  split
  · exact pure _
  · exact tryCatch (fulfillRequest ctx account) logAndRethrow

theorem processAccounts (accounts : List Account) : Only (Request.Allowed ctx) (processAccounts ctx accounts) := by
  induction accounts with
  | nil => exact pure _
  | cons account rest ih =>
    have processed : Only (Request.Allowed ctx) (processAccount ctx account) := by
      refine tryCatch ((processRequestAccount ctx account).bind fun processed => ?_)
        fun error => (readMessage error).bind fun _ => modify _
      split
      · exact sleep ctx (.inl rfl)
      · exact pure _
    exact processed.bind fun _ => ih

theorem checkRequestStatus (data : Bytes) : Only (Request.Allowed ctx) (checkRequestStatus data) := by
  unfold KamuiVrf.checkRequestStatus
  split
  · exact pure _
  · exact logAndReturn _ _

theorem scanAccounts (accounts : List Account) : Only (Request.Allowed ctx) (scanAccounts accounts) := by
  induction accounts with
  | nil => exact pure _
  | cons account rest ih =>
    have scanned : Only (Request.Allowed ctx) (scanAccount account) := by
      unfold KamuiVrf.scanAccount KamuiVrf.isRequestPending
      split_ifs
      · exact pure _
      · refine read fun server => ?_
        split
        · refine (dateNow ctx).bind fun now => ?_
          split_ifs
          · exact pure _
          · exact (modify _).bind fun _ => checkRequestStatus ctx _
        · exact checkRequestStatus ctx _
      · exact pure _
    exact (tryCatch scanned (logAndReturn false)).bind fun _ => ih.bind fun _ => pure _

theorem monitoringTurn : Only (Request.Allowed ctx) (monitoringTurn ctx) := by
  have monitored : Only (Request.Allowed ctx) (monitorAndProcess ctx) := by
    refine tryCatch (((getProgramAccountsCall ctx).bind (scanAccounts ctx)).bind fun accounts => ?_) logAndRethrow
    split
    · exact pure _
    · exact processAccounts ctx accounts
  exact tryCatch (monitored.bind fun _ => sleep ctx (.inr (.inl rfl)))
    fun error => (readMessage error).bind fun _ => (modify _).bind fun _ => sleep ctx (.inr (.inr rfl))

theorem start : Only (Request.Allowed ctx) start :=
  (modify _).bind fun _ => (dateNow ctx).bind fun _ => modify _

end Only

-- What every state of the process satisfies: the code still to run makes only allowed calls.
def Control.Confined (ctx : Context) : Control → Prop
  | .running program => program.wp (fun _ request => request.Allowed ctx) (fun _ _ => True) (fun _ _ => True)
  | .exited .. => True

theorem Control.Confined.step {ctx : Context} {control next : Control} (confined : control.Confined ctx)
    (step : Step ctx control next) : next.Confined ctx := by
  cases step with
  | answer outcome => exact confined.2 outcome
  | turn running => exact Only.monitoringTurn ctx _
  | signal | finish | crash => trivial

theorem reachable_confined {ctx : Context} {startTime : Nat} {control : Control}
    (reachable : Reachable ctx startTime control) : control.Confined ctx := by
  induction reachable with
  | initial => exact Only.start ctx _
  | step _ step ih => exact ih.step step

-- In every state the process reaches, whatever the collaborators answered and whenever
-- signals arrived, the call it awaits is one its configuration allows.
theorem calls_allowed {ctx : Context} {startTime : Nat} {server : Server} {request : Request}
    {resume : request.Outcome → Prog Unit} (reachable : Reachable ctx startTime (.running (.call server request resume))) :
    request.Allowed ctx :=
  (reachable_confined reachable).1

theorem calls_allowed_firstScan :
    let ctx : Context := ⟨[],[2],⟨"mangekyou",⟨"secret","cd"⟩⟩,3000,fun _ _ => [],fun _ => none⟩
    Request.Allowed ctx (.getProgramAccounts []) :=
  calls_allowed (((@Reachable.initial _ 0).step (@Step.answer _ _ .now _ (0 : Nat))).step (.turn rfl))

end KamuiVrf
