import KamuiVrf.Commands
import KamuiVrf.Encoding

namespace KamuiVrf

-- What `processRequestAccount` sends: one instruction to the VRF program carrying the
-- payload of the proof the CLI produced, and verified, on the request's own seed, and the
-- request's own accounts, with the subscription read from bytes 8..40.
theorem processRequestAccount_submits (ctx : Context) (account : Account) (server : Server) :
    (processRequestAccount ctx account server).wp
      (fun now request => ∀ transaction, request = .sendRawTransaction transaction →
        ∃ parsed proofResult proveOutput verifyOutput instruction,
          parseRequestAccount account.data = .ok parsed ∧ parseProveOutput proveOutput.stdout = some proofResult ∧
          List.Sublist (server.history ++
            [.io (.exec (ctx.cli.proveCommand (toHex (slice account.data 40 72)))) (Except.ok proveOutput),
              .io (.exec (ctx.cli.verifyCommand proofResult.proof proofResult.output ctx.cli.getPublicKey
                (toHex (slice account.data 40 72)))) (Except.ok verifyOutput)]) now.history ∧
          transaction.instructions = [instruction] ∧ instruction.programId = ctx.vrfProgramId ∧
          fulfillData (fromHex proofResult.proof) (fromHex ctx.cli.getPublicKey) parsed.requestId parsed.poolId
            parsed.requestIndex = .ok instruction.data ∧
          instruction.keys = [⟨ctx.oraclePubkey,true,true⟩,⟨account.pubkey,false,true⟩,
            ⟨ctx.findProgramAddress [utf8Bytes "vrf_result",account.pubkey] ctx.vrfProgramId,false,true⟩,
            ⟨ctx.findProgramAddress [utf8Bytes "request_pool",slice account.data 8 40,[UInt8.ofNat parsed.poolId]]
              ctx.vrfProgramId,false,true⟩,⟨slice account.data 8 40,false,true⟩,⟨systemProgramId,false,false⟩])
      (fun _ _ => True) (fun _ _ => True) := by
  -- the branches that return before proving hold trivially
  rw [Prog.wp_processRequestAccount]
  split_ifs
  rw [Prog.wp_fulfillRequest]
  split_ifs
  cases parse : parseRequestAccount account.data with
  | error error => trivial
  | ok parsed =>
    obtain ⟨subscription,seed,requester,poolId,requestIndex,requestId⟩ := parsed
    obtain ⟨rfl,rfl,long⟩ := parseRequestAccount_ok parse
    dsimp only
    rw [MangekyouCLIInterface.wp_generateProof]
    refine ⟨(fun _ sent => nomatch sent),fun proveOutput => ?_,fun _ => trivial⟩
    cases proved : parseProveOutput proveOutput.stdout with
    | none => trivial
    | some proofResult =>
      dsimp only
      rw [MangekyouCLIInterface.wp_verifyProof]
      refine ⟨(fun _ sent => nomatch sent),fun verifyOutput => ?_,fun _ => by split <;> trivial⟩
      rw [if_pos rfl,Prog.wp_recordAndSubmit]
      refine ⟨(fun _ sent => nomatch sent),fun timestamp => ?_⟩
      rw [Prog.wp_submitFulfillment]
      split
      · next instruction created =>
        refine Prog.wp_mono (Prog.sendTransaction_frame ctx instruction _) ?_ (fun _ _ _ => trivial)
          fun _ _ _ => by split <;> trivial
        rintro now _ ⟨⟨-,-,-,outcomes,history,-⟩,sent⟩ transaction rfl
        obtain ⟨laid,program,keys⟩ := createFulfillmentInstruction_ok created
        have width : (slice account.data 8 40).length = 32 := by
          rw [length_slice]
          omega
        refine ⟨_,proofResult,proveOutput,verifyOutput,instruction,rfl,proved,?_,(sent _ rfl).1,program,laid,?_⟩
        · rw [history]
          simp only [Server.recordSubmission_history,Server.log_history,List.append_assoc,List.singleton_append,
            List.cons_append,List.nil_append]
          exact List.Sublist.append_left (.cons _ (.cons₂ _ (.cons₂ _ (List.nil_sublist _)))) _
        · rw [keys,publicKeyOfBytes_of_length width]
      · split <;> trivial

-- Under collaborators that prove, verify and hand out blockhashes, a fresh record that holds
-- every field has its fulfillment sent.
theorem processRequestAccount_sends (answer : Server → (request : Request) → request.Outcome) (ctx : Context)
    (account : Account) (server : Server) {proofResult : ProofResult}
    (fresh : server.processedRequests account.pubkey = none)
    (tagged : discriminatorHex account.data = requestDiscriminatorHex)
    (fits : 166 + callbackLength account.data ≤ account.data.length)
    (proves : ∀ server, ∃ output, answer server (.exec (ctx.cli.proveCommand (toHex (slice account.data 40 72)))) =
      Except.ok output ∧ parseProveOutput output.stdout = some proofResult)
    (verifies : ∀ server, ∃ output, answer server (.exec (ctx.cli.verifyCommand proofResult.proof proofResult.output
      ctx.cli.getPublicKey (toHex (slice account.data 40 72)))) = Except.ok output)
    (proofFits : (fromHex proofResult.proof).length < 2 ^ 32) (keyFits : (fromHex ctx.cli.getPublicKey).length < 2 ^ 32)
    (fetches : ∀ server, ∃ latest, answer server .getLatestBlockhash = Except.ok latest)
    (serializes : ∀ transaction, ctx.serializeError transaction = none) :
    Prog.SendsTransaction ((processRequestAccount ctx account server).calls answer) := by
  have long : ¬ account.data.length < 8 := by omega
  obtain ⟨idWidth,poolFits,indexFits⟩ := fullRecord_fields fits
  simp only [processRequestAccount,M.bind_apply,emit_apply,getServer_apply,Prog.ret_bind,Server.log_processedRequests,
    fresh,Option.isSome_none,Bool.false_eq_true,if_false]
  rw [Prog.calls_tryCatch answer (Prog.calls_logAndRethrow answer)]
  simp only [fulfillRequest,long,tagged,ne_eq,not_true_eq_false,if_false,parseRequestAccount_eq fits,liftExcept_ok,
    M.bind_apply,M.pure_apply,Prog.ret_bind]
  obtain ⟨output,proved,parsed⟩ := proves (server.log (.processing account))
  refine .bind_right answer (Prog.generateProof_interp answer proved parsed) ?_
  obtain ⟨result,verified⟩ := verifies _
  refine .bind_right answer (Prog.verifyProof_interp answer verified) ?_
  simp only [Bool.not_true,Bool.false_eq_true,if_false,recordAndSubmit,M.bind_apply,dateNow,perform_apply,Prog.bind,
    Prog.calls,Prog.ret_bind,recordProcessed,modifyServer_apply,emit_apply]
  refine .cons _ (.bind_left answer ?_)
  rw [submitFulfillment,Prog.calls_tryCatch answer (Prog.calls_logAndReturn answer false),
    createFulfillmentInstruction_eq,fulfillData_eq proofFits keyFits idWidth poolFits indexFits]
  exact Prog.sendTransaction_sends answer ctx _ _ fetches serializes

-- Every transaction `processRequestAccount` sends is the verified fulfillment of the record's
-- own fields and accounts, and a fresh full record whose proof the CLI produces and verifies
-- has it sent.
theorem submission_verified (ctx : Context) (account : Account) (server : Server) :
    (processRequestAccount ctx account server).wp
      (fun now request => ∀ transaction, request = .sendRawTransaction transaction →
        ∃ parsed proofResult proveOutput verifyOutput instruction,
          parseRequestAccount account.data = .ok parsed ∧ parseProveOutput proveOutput.stdout = some proofResult ∧
          List.Sublist (server.history ++
            [.io (.exec (ctx.cli.proveCommand (toHex (slice account.data 40 72)))) (Except.ok proveOutput),
              .io (.exec (ctx.cli.verifyCommand proofResult.proof proofResult.output ctx.cli.getPublicKey
                (toHex (slice account.data 40 72)))) (Except.ok verifyOutput)]) now.history ∧
          transaction.instructions = [instruction] ∧ instruction.programId = ctx.vrfProgramId ∧
          fulfillData (fromHex proofResult.proof) (fromHex ctx.cli.getPublicKey) parsed.requestId parsed.poolId
            parsed.requestIndex = .ok instruction.data ∧
          instruction.keys = [⟨ctx.oraclePubkey,true,true⟩,⟨account.pubkey,false,true⟩,
            ⟨ctx.findProgramAddress [utf8Bytes "vrf_result",account.pubkey] ctx.vrfProgramId,false,true⟩,
            ⟨ctx.findProgramAddress [utf8Bytes "request_pool",slice account.data 8 40,[UInt8.ofNat parsed.poolId]]
              ctx.vrfProgramId,false,true⟩,⟨slice account.data 8 40,false,true⟩,⟨systemProgramId,false,false⟩])
      (fun _ _ => True) (fun _ _ => True) ∧
    ∀ (answer : Server → (request : Request) → request.Outcome) (proofResult : ProofResult),
      server.processedRequests account.pubkey = none → discriminatorHex account.data = requestDiscriminatorHex →
      166 + callbackLength account.data ≤ account.data.length →
      (∀ server, ∃ output, answer server (.exec (ctx.cli.proveCommand (toHex (slice account.data 40 72)))) =
        Except.ok output ∧ parseProveOutput output.stdout = some proofResult) →
      (∀ server, ∃ output, answer server (.exec (ctx.cli.verifyCommand proofResult.proof proofResult.output
        ctx.cli.getPublicKey (toHex (slice account.data 40 72)))) = Except.ok output) →
      (fromHex proofResult.proof).length < 2 ^ 32 → (fromHex ctx.cli.getPublicKey).length < 2 ^ 32 →
      (∀ server, ∃ latest, answer server .getLatestBlockhash = Except.ok latest) →
      (∀ transaction, ctx.serializeError transaction = none) →
      Prog.SendsTransaction ((processRequestAccount ctx account server).calls answer) :=
  ⟨processRequestAccount_submits ctx account server,fun answer _ => processRequestAccount_sends answer ctx account server⟩

-- A CLI that proves every command line, sending the full zero record.
set_option maxRecDepth 4000 in
theorem submission_verified_constantProofCli :
    let ctx : Context := ⟨[],[2],⟨"mangekyou",⟨"secret","cd"⟩⟩,3000,fun _ _ => [],fun _ => none⟩
    let record : Account := ⟨[1],requestDiscriminator ++ List.replicate 158 0⟩
    (initialServer 0).processedRequests record.pubkey = none ∧
      discriminatorHex record.data = requestDiscriminatorHex ∧ 166 + callbackLength record.data ≤ record.data.length ∧
      Prog.SendsTransaction ((processRequestAccount ctx record (initialServer 0)).calls constantProofCli) :=
  ⟨rfl,by decide,by decide,(submission_verified _ _ (initialServer 0)).2 constantProofCli ⟨"ab","cd"⟩ rfl (by decide)
    (by decide) (fun _ => ⟨_,rfl,by decide⟩) (fun _ => ⟨_,rfl⟩) (by decide) (by decide) (fun _ => ⟨_,rfl⟩) fun _ => rfl⟩

-- A CLI that proves and verifies every input, and a ledger that takes the fulfillment but
-- reports an error when it is confirmed.
def failingConfirmation : Server → (request : Request) → request.Outcome := fun _ request =>
  match request with
  | .getProgramAccounts _ => Except.ok []
  | .exec _ => Except.ok ⟨"Proof: ab\nOutput: cd",""⟩
  | .getLatestBlockhash => Except.ok ⟨"hash",100⟩
  | .sendRawTransaction _ => Except.ok "sig"
  | .confirmTransaction .. => Except.ok ⟨some "InstructionError"⟩
  | .sleep _ => ()
  | .now => (1000 : Nat)

-- A fulfillment that fails at confirmation leaves the request recorded, counts no error,
-- and the next scan skips the request.
set_option maxRecDepth 100000 in
theorem failedConfirmation_recorded :
    let ctx : Context := ⟨[],[2],⟨"mangekyou",⟨"secret","cd"⟩⟩,3000,fun _ _ => [],fun _ => none⟩
    let account : Account := ⟨[1],requestDiscriminator ++ List.replicate 158 0⟩
    let run := (processAccount ctx account (initialServer 0)).interp failingConfirmation
    run.1.toOption = some () ∧ (run.2.processedRequests account.pubkey).isSome ∧ run.2.stats.requestsFulfilled = 0 ∧
      run.2.stats.errors = 0 ∧ ((scanAccounts [account] run.2).interp failingConfirmation).1.toOption = some [] := by
  intro ctx account run
  decide

end KamuiVrf
