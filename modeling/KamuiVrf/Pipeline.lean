import KamuiVrf.Scanner
import KamuiVrf.Payload

namespace KamuiVrf

def createFulfillmentInstruction (ctx : Context) (requestAccountPubkey : Bytes) (proofResult : ProofResult)
    (requestId : Bytes) (poolId requestIndex : Nat) (subscriptionPDA : Bytes) : Except JsValue Instruction := do
  let requestAccount := requestAccountPubkey
  let proofBuffer := fromHex proofResult.proof
  let publicKeyBuffer := fromHex ctx.cli.getPublicKey
  let requestPoolPDA :=
    ctx.findProgramAddress [utf8Bytes "request_pool",subscriptionPDA,[UInt8.ofNat poolId]] ctx.vrfProgramId
  let vrfResultPDA := ctx.findProgramAddress [utf8Bytes "vrf_result",requestAccount] ctx.vrfProgramId
  let data ← fulfillData proofBuffer publicKeyBuffer requestId poolId requestIndex
  pure ⟨[⟨ctx.oraclePubkey,true,true⟩,⟨requestAccount,false,true⟩,⟨vrfResultPDA,false,true⟩,
    ⟨requestPoolPDA,false,true⟩,⟨subscriptionPDA,false,true⟩,⟨systemProgramId,false,false⟩],ctx.vrfProgramId,data⟩

-- `submitFulfillment`'s `try` block from the instruction on: sign, send, confirm.
def sendTransaction (ctx : Context) (instruction : Instruction) : M Bool := do
  let latest ← getLatestBlockhash
  let transaction : Transaction := ⟨[instruction],latest.blockhash,ctx.oraclePubkey⟩
  match ctx.serializeError transaction with
  | some error => throwJs error
  | none => do
    let signature ← sendRawTransaction transaction
    let current ← getLatestBlockhash
    let confirmation ← confirmTransaction signature latest.blockhash current.lastValidBlockHeight
    pure confirmation.err.isNone

-- `{ success }` of `submitFulfillment`; the signature and the error text are only logged.
def submitFulfillment (ctx : Context) (requestAccountPubkey : Bytes) (proofResult : ProofResult)
    (requestId : Bytes) (poolId requestIndex : Nat) (subscriptionPDA : Bytes) : M Bool :=
  tryCatch
    (do
      let instruction ← liftExcept
        (createFulfillmentInstruction ctx requestAccountPubkey proofResult requestId poolId requestIndex subscriptionPDA)
      sendTransaction ctx instruction)
    (logAndReturn false)

-- The object `processRequestAccount` stores under the request's key.
def processedInfo (timestamp : Nat) (proofResult : ProofResult) (request : ParsedRequest) : ProcessedInfo :=
  ⟨timestamp,proofResult.proof,proofResult.output,toHex request.seed,toHex request.requestId,request.poolId,
    request.requestIndex⟩

def recordProcessed (key : Bytes) (info : ProcessedInfo) : M Unit :=
  modifyServer fun server => (server.setProcessed key info).log (.recorded key info)

-- `processRequestAccount` once the proof is verified: mark the request processed,
-- count it, submit, and count a success.
def recordAndSubmit (ctx : Context) (account : Account) (request : ParsedRequest) (proofResult : ProofResult) :
    M Bool := do
  let timestamp ← dateNow
  recordProcessed account.pubkey (processedInfo timestamp proofResult request)
  modifyServer (·.countProcessed)
  emit (.submitting account.pubkey timestamp)
  let success ← submitFulfillment ctx account.pubkey proofResult request.requestId request.poolId
    request.requestIndex (publicKeyOfBytes request.subscription)
  emit (.submitted account.pubkey success)
  if success then do
    modifyServer (·.countFulfilled)
    pure true
  else pure false

-- The `try` block of `processRequestAccount`, from the length check on.
def fulfillRequest (ctx : Context) (account : Account) : M Bool :=
  let data := account.data
  if data.length < 8 then pure false
  else if discriminatorHex data ≠ requestDiscriminatorHex then pure false
  else do
    let request ← liftExcept (parseRequestAccount data)
    let proofResult ← ctx.cli.generateProof request.seed
    let isValid ← ctx.cli.verifyProof proofResult.proof proofResult.output ctx.cli.getPublicKey request.seed
    if !isValid then pure false
    else recordAndSubmit ctx account request proofResult

def processRequestAccount (ctx : Context) (account : Account) : M Bool := do
  emit (.processing account)
  if ((← getServer).processedRequests account.pubkey).isSome then pure false
  else tryCatch (fulfillRequest ctx account) logAndRethrow

namespace Server

-- The state `recordAndSubmit` hands to `submitFulfillment`.
def recordSubmission (server : Server) (key : Bytes) (info : ProcessedInfo) : Server :=
  (((server.setProcessed key info).log (.recorded key info)).countProcessed).log (.submitting key info.timestamp)

-- The state after `submitFulfillment` answered `success`.
def settle (server : Server) (key : Bytes) (success : Bool) : Server :=
  if success then (server.log (.submitted key success)).countFulfilled else server.log (.submitted key success)

@[simp] theorem recordSubmission_processedRequests (server : Server) (key : Bytes) (info : ProcessedInfo)
    (other : Bytes) :
    (server.recordSubmission key info).processedRequests other =
      if other = key then some info else server.processedRequests other := rfl
@[simp] theorem recordSubmission_stats (server : Server) (key : Bytes) (info : ProcessedInfo) :
    (server.recordSubmission key info).stats =
      { server.stats with requestsProcessed := server.stats.requestsProcessed + 1 } := rfl
@[simp] theorem recordSubmission_history (server : Server) (key : Bytes) (info : ProcessedInfo) :
    (server.recordSubmission key info).history = server.history ++ [.recorded key info,.submitting key info.timestamp] := by
  simp [recordSubmission]
@[simp] theorem recordSubmission_isRunning (server : Server) (key : Bytes) (info : ProcessedInfo) :
    (server.recordSubmission key info).isRunning = server.isRunning := rfl

@[simp] theorem settle_processedRequests (server : Server) (key : Bytes) (success : Bool) :
    (server.settle key success).processedRequests = server.processedRequests := by
  cases success <;> rfl
@[simp] theorem settle_stats (server : Server) (key : Bytes) (success : Bool) :
    (server.settle key success).stats =
      { server.stats with requestsFulfilled := server.stats.requestsFulfilled + success.toNat } := by
  cases success <;> rfl
@[simp] theorem settle_history (server : Server) (key : Bytes) (success : Bool) :
    (server.settle key success).history = server.history ++ [.submitted key success] := by
  cases success <;> rfl
@[simp] theorem settle_isRunning (server : Server) (key : Bytes) (success : Bool) :
    (server.settle key success).isRunning = server.isRunning := by
  cases success <;> rfl

end Server

-- The instruction is the payload and the six metas, or the payload's write error.
theorem createFulfillmentInstruction_eq (ctx : Context) (requestAccountPubkey : Bytes) (proofResult : ProofResult)
    (requestId : Bytes) (poolId requestIndex : Nat) (subscriptionPDA : Bytes) :
    createFulfillmentInstruction ctx requestAccountPubkey proofResult requestId poolId requestIndex subscriptionPDA =
      (fulfillData (fromHex proofResult.proof) (fromHex ctx.cli.getPublicKey) requestId poolId requestIndex).map
        fun data => ⟨[⟨ctx.oraclePubkey,true,true⟩,⟨requestAccountPubkey,false,true⟩,
          ⟨ctx.findProgramAddress [utf8Bytes "vrf_result",requestAccountPubkey] ctx.vrfProgramId,false,true⟩,
          ⟨ctx.findProgramAddress [utf8Bytes "request_pool",subscriptionPDA,[UInt8.ofNat poolId]] ctx.vrfProgramId,
            false,true⟩,⟨subscriptionPDA,false,true⟩,⟨systemProgramId,false,false⟩],ctx.vrfProgramId,data⟩ := by
  dsimp only [createFulfillmentInstruction]
  cases fulfillData (fromHex proofResult.proof) (fromHex ctx.cli.getPublicKey) requestId poolId requestIndex <;> rfl

theorem createFulfillmentInstruction_ok {ctx : Context} {requestAccountPubkey : Bytes} {proofResult : ProofResult}
    {requestId : Bytes} {poolId requestIndex : Nat} {subscriptionPDA : Bytes} {instruction : Instruction}
    (created : createFulfillmentInstruction ctx requestAccountPubkey proofResult requestId poolId requestIndex
      subscriptionPDA = .ok instruction) :
    fulfillData (fromHex proofResult.proof) (fromHex ctx.cli.getPublicKey) requestId poolId requestIndex =
        .ok instruction.data ∧ instruction.programId = ctx.vrfProgramId ∧
      instruction.keys = [⟨ctx.oraclePubkey,true,true⟩,⟨requestAccountPubkey,false,true⟩,
        ⟨ctx.findProgramAddress [utf8Bytes "vrf_result",requestAccountPubkey] ctx.vrfProgramId,false,true⟩,
        ⟨ctx.findProgramAddress [utf8Bytes "request_pool",subscriptionPDA,[UInt8.ofNat poolId]] ctx.vrfProgramId,
          false,true⟩,⟨subscriptionPDA,false,true⟩,⟨systemProgramId,false,false⟩] := by
  rw [createFulfillmentInstruction_eq] at created
  cases laid : fulfillData (fromHex proofResult.proof) (fromHex ctx.cli.getPublicKey) requestId poolId requestIndex with
  | error error => simp [laid,Except.map] at created
  | ok data =>
    simp only [laid,Except.map,Except.ok.injEq] at created
    exact created ▸ ⟨rfl,rfl,rfl⟩

namespace Prog

-- `sendTransaction` only awaits, and the one transaction it sends carries the instruction.
theorem sendTransaction_frame (ctx : Context) (instruction : Instruction) (server : Server) :
    (sendTransaction ctx instruction server).wp
      (fun now request => IoLog server now ∧ ∀ transaction, request = .sendRawTransaction transaction →
        transaction.instructions = [instruction] ∧ transaction.feePayer = ctx.oraclePubkey)
      (fun _ after => IoLog server after) (fun _ after => IoLog server after) := by
  simp only [sendTransaction,M.bind_apply,wp_bind,wp_getLatestBlockhash]
  refine ⟨⟨IoLog.refl server,by simp⟩,fun latest => ?_,fun _ => (IoLog.refl server).io _ _⟩
  have fetched := (IoLog.refl server).io .getLatestBlockhash (.ok latest)
  cases ctx.serializeError ⟨[instruction],latest.blockhash,ctx.oraclePubkey⟩
  · simp only [wp_bind,wp_sendRawTransaction,wp_getLatestBlockhash,wp_confirmTransaction,M.bind_apply]
    refine ⟨⟨fetched,fun _ sent => ⟨by cases sent; rfl,by cases sent; rfl⟩⟩,fun signature => ?_,fun _ => fetched.io _ _⟩
    have sent := fetched.io (.sendRawTransaction ⟨[instruction],latest.blockhash,ctx.oraclePubkey⟩) (.ok signature)
    refine ⟨⟨sent,fun _ => nofun⟩,fun current => ?_,fun _ => sent.io _ _⟩
    have confirming := sent.io .getLatestBlockhash (.ok current)
    exact ⟨⟨confirming,fun _ => nofun⟩,fun _ => confirming.io _ _,fun _ => confirming.io _ _⟩
  · exact fetched

theorem wp_submitFulfillment (ctx : Context) (key : Bytes) (proofResult : ProofResult) (requestId : Bytes)
    (poolId requestIndex : Nat) (subscriptionPDA : Bytes) (server : Server) :
    (submitFulfillment ctx key proofResult requestId poolId requestIndex subscriptionPDA server).wp pending done failed ↔
      match createFulfillmentInstruction ctx key proofResult requestId poolId requestIndex subscriptionPDA with
      | .ok instruction => (sendTransaction ctx instruction server).wp pending done
          fun error after => if error.isNullish then failed readMessageError after else done false after
      | .error error => if error.isNullish then failed readMessageError server else done false server := by
  simp only [submitFulfillment,tryCatch_apply,wp_handle,M.bind_apply,wp_bind,wp_logAndReturn]
  split <;> simp_all

theorem submitFulfillment_frame (ctx : Context) (key : Bytes) (proofResult : ProofResult) (requestId : Bytes)
    (poolId requestIndex : Nat) (subscriptionPDA : Bytes) (server : Server) :
    (submitFulfillment ctx key proofResult requestId poolId requestIndex subscriptionPDA server).wp (fun _ _ => True)
      (fun _ after => IoLog server after) (fun _ after => IoLog server after) := by
  rw [wp_submitFulfillment]
  split
  · exact wp_mono (sendTransaction_frame ctx _ server) (fun _ _ _ => trivial) (fun _ _ => id)
      fun _ _ logged => by split <;> exact logged
  · split <;> exact IoLog.refl server

theorem wp_recordAndSubmit (ctx : Context) (account : Account) (request : ParsedRequest) (proofResult : ProofResult)
    (server : Server) :
    (recordAndSubmit ctx account request proofResult server).wp pending done failed ↔
      pending server .now ∧ ∀ timestamp : Nat,
        (submitFulfillment ctx account.pubkey proofResult request.requestId request.poolId request.requestIndex
          (publicKeyOfBytes request.subscription)
          ((server.log (.io .now timestamp)).recordSubmission account.pubkey (processedInfo timestamp proofResult request))).wp
          pending (fun success after => done success (after.settle account.pubkey success)) failed := by
  simp only [recordAndSubmit,M.bind_apply,wp_bind,wp_dateNow,recordProcessed,modifyServer_apply,emit_apply,wp_ret]
  refine and_congr_right fun _ => forall_congr' fun timestamp => wp_congr (fun success after => ?_) fun _ _ => .rfl
  cases success <;> rfl

theorem wp_fulfillRequest (ctx : Context) (account : Account) (server : Server) :
    (fulfillRequest ctx account server).wp pending done failed ↔
      if account.data.length < 8 ∨ discriminatorHex account.data ≠ requestDiscriminatorHex then done false server
      else match parseRequestAccount account.data with
        | .error error => failed error server
        | .ok request => (ctx.cli.generateProof request.seed server).wp pending
            (fun proofResult proved =>
              (ctx.cli.verifyProof proofResult.proof proofResult.output ctx.cli.getPublicKey request.seed proved).wp
                pending (fun isValid verified =>
                  if isValid then (recordAndSubmit ctx account request proofResult verified).wp pending done failed
                  else done false verified) failed)
            failed := by
  unfold fulfillRequest
  by_cases short : account.data.length < 8
  · simp [short]
  by_cases tagged : discriminatorHex account.data = requestDiscriminatorHex
  · cases parseRequestAccount account.data with
    | error error => simp [short,tagged,bind]
    | ok request =>
      simp only [short,tagged,ne_eq,not_true_eq_false,or_self,if_false,liftExcept_ok,M.bind_apply,M.pure_apply,
        wp_bind,wp_ret]
      refine wp_congr (fun proofResult proved => wp_congr (fun isValid verified => ?_) fun _ _ => .rfl) fun _ _ => .rfl
      cases isValid <;> rfl
  · simp [short,tagged]

theorem wp_processRequestAccount (ctx : Context) (account : Account) (server : Server) :
    (processRequestAccount ctx account server).wp pending done failed ↔
      if (server.processedRequests account.pubkey).isSome then done false (server.log (.processing account))
      else (fulfillRequest ctx account (server.log (.processing account))).wp pending done
        fun error after => failed (if error.isNullish then readMessageError else error) after := by
  unfold processRequestAccount
  split <;> simp_all [bind]

end Prog

end KamuiVrf
