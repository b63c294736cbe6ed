import KamuiVrf.Locality

namespace KamuiVrf

namespace Prog

-- The calls a computation makes when `answer` answers them, in order.
def calls (answer : Server → (request : Request) → request.Outcome) : Prog α → List Event
  | ret .. => []
  | raise .. => []
  | call server request resume => .io request (answer server request) :: (resume (answer server request)).calls answer

variable (answer : Server → (request : Request) → request.Outcome)

theorem calls_bind (program : Prog α) (next : α → Server → Prog β) :
    (program.bind next).calls answer = program.calls answer ++
      match program.interp answer with
      | (.ok value,server) => (next value server).calls answer
      | (.error _,_) => [] := by
  induction program with
  | ret value server => rfl
  | raise error server => rfl
  | call server request resume ih => simp only [bind,calls,interp,ih,List.cons_append]

theorem calls_handle (program : Prog α) (handler : JsValue → Server → Prog α) :
    (program.handle handler).calls answer = program.calls answer ++
      match program.interp answer with
      | (.ok _,_) => []
      | (.error error,server) => (handler error server).calls answer := by
  induction program with
  | ret value server => rfl
  | raise error server => rfl
  | call server request resume ih => simp only [handle,calls,interp,ih,List.cons_append]

theorem calls_pending {program : Prog α} (holds : program.wp pending done failed) :
    ∀ event ∈ program.calls answer, ∃ server request, pending server request ∧ event = .io request (answer server request) := by
  induction program with
  | ret value server => exact fun _ inside => absurd inside (List.not_mem_nil _)
  | raise error server => exact fun _ inside => absurd inside (List.not_mem_nil _)
  | call server request resume ih =>
    intro event inside
    rcases List.mem_cons.mp inside with rfl | later
    · exact ⟨server,request,holds.1,rfl⟩
    · exact ih _ (holds.2 _) event later

theorem calls_logAndRethrow (error : JsValue) (server : Server) : (logAndRethrow error server : Prog α).calls answer = [] := by
  unfold logAndRethrow readMessage
  split <;> rfl

theorem calls_logAndReturn (value : α) (error : JsValue) (server : Server) :
    (logAndReturn value error server).calls answer = [] := by
  unfold logAndReturn readMessage
  split <;> rfl

theorem interp_logAndRethrow (error : JsValue) (server : Server) :
    (logAndRethrow error server : Prog α).interp answer =
      (.error (if error.isNullish then readMessageError else error),server) := by
  unfold logAndRethrow readMessage
  split <;> simp_all [bind,throwJs,interp]

theorem calls_tryCatch {body : M α} {handler : JsValue → M α}
    (quiet : ∀ error server, (handler error server).calls answer = []) (server : Server) :
    (tryCatch body handler server).calls answer = (body server).calls answer := by
  rw [tryCatch_apply,calls_handle]
  split <;> simp [quiet]

end Prog

def Request.command : Request → Option String
  | .exec command => some command
  | _ => none

def Event.execCommand : Event → Option String
  | .io request _ => request.command
  | _ => none

def execCommands (events : List Event) : List String := events.filterMap Event.execCommand

@[simp] theorem execCommands_append (events more : List Event) :
    execCommands (events ++ more) = execCommands events ++ execCommands more :=
  List.filterMap_append _ _ _

@[simp] theorem execCommands_exec (command : String) (outcome : Except JsValue ExecOutput) :
    execCommands [.io (.exec command) outcome] = [command] := rfl

theorem execCommands_calls_of_wp (answer : Server → (request : Request) → request.Outcome) {program : Prog α}
    (holds : program.wp (fun _ request => request.command = none) done failed) : execCommands (program.calls answer) = [] :=
  List.filterMap_eq_nil_iff.mpr fun event inside => by
    obtain ⟨_,request,quiet,rfl⟩ := Prog.calls_pending answer holds event inside
    exact quiet

-- A CLI whose stdout is a function of its command line.
def StdoutOf (answer : Server → (request : Request) → request.Outcome) (stdoutOf : String → String) : Prop :=
  ∀ server command output, answer server (.exec command) = Except.ok output → output.stdout = stdoutOf command

-- The prove command of the seed, then the verify command of what it prints.
def seedCommands (cli : MangekyouCLIInterface) (stdoutOf : String → String) (seed : Bytes) : List String :=
  cli.proveCommand (toHex seed) :: match parseProveOutput (stdoutOf (cli.proveCommand (toHex seed))) with
    | some result => [cli.verifyCommand result.proof result.output cli.getPublicKey (toHex seed)]
    | none => []

namespace Prog

variable (answer : Server → (request : Request) → request.Outcome)

theorem generateProof_calls (cli : MangekyouCLIInterface) (input : Bytes) (server : Server) :
    (cli.generateProof input server).calls answer =
      [.io (.exec (cli.proveCommand (toHex input))) (answer server (.exec (cli.proveCommand (toHex input))))] := by
  rw [MangekyouCLIInterface.generateProof,calls_tryCatch answer (calls_logAndRethrow answer)]
  show Event.io _ _ :: calls answer _ = _
  congr 1
  generalize (answer server (.exec (cli.proveCommand (toHex input))) : Except JsValue ExecOutput) = outcome
  cases outcome with
  | error error => rfl
  | ok output =>
    simp only [ret_bind,liftExcept_ok,M.pure_apply]
    cases parseProveOutput output.stdout <;> rfl

theorem generateProof_ok {cli : MangekyouCLIInterface} {input : Bytes} {server after : Server} {result : ProofResult}
    (ok : (cli.generateProof input server).interp answer = (.ok result,after)) :
    ∃ output, answer server (.exec (cli.proveCommand (toHex input))) = Except.ok output ∧
      parseProveOutput output.stdout = some result := by
  simp only [MangekyouCLIInterface.generateProof,tryCatch_apply,interp_handle,execAsync,perform,M.bind_apply,bind,
    interp] at ok
  generalize (answer server (.exec (cli.proveCommand (toHex input))) : Except JsValue ExecOutput) = outcome at ok ⊢
  cases outcome with
  | error error => simp [liftExcept,throwJs,interp,interp_logAndRethrow] at ok
  | ok output =>
    refine ⟨output,rfl,?_⟩
    cases parsed : parseProveOutput output.stdout <;> simp [parsed,throwJs,interp,interp_logAndRethrow] at ok ⊢
    exact ok.1

theorem verifyProof_calls (cli : MangekyouCLIInterface) (proof output publicKey : String) (input : Bytes)
    (server : Server) :
    (cli.verifyProof proof output publicKey input server).calls answer =
      [.io (.exec (cli.verifyCommand proof output publicKey (toHex input)))
        (answer server (.exec (cli.verifyCommand proof output publicKey (toHex input))))] := by
  rw [MangekyouCLIInterface.verifyProof,calls_tryCatch answer (calls_logAndReturn answer false)]
  show Event.io _ _ :: calls answer _ = _
  congr 1
  generalize (answer server (.exec (cli.verifyCommand proof output publicKey (toHex input))) :
    Except JsValue ExecOutput) = outcome
  cases outcome <;> rfl

theorem sendTransaction_quiet (ctx : Context) (instruction : Instruction) (server : Server) :
    (sendTransaction ctx instruction server).wp (fun _ request => request.command = none) (fun _ _ => True)
      (fun _ _ => True) := by
  simp only [sendTransaction,M.bind_apply,wp_bind,wp_getLatestBlockhash]
  refine ⟨rfl,fun latest => ?_,fun _ => trivial⟩
  cases ctx.serializeError ⟨[instruction],latest.blockhash,ctx.oraclePubkey⟩ <;> simp [Request.command]

theorem recordAndSubmit_quiet (ctx : Context) (account : Account) (request : ParsedRequest) (proofResult : ProofResult)
    (server : Server) :
    (recordAndSubmit ctx account request proofResult server).wp (fun _ request => request.command = none)
      (fun _ _ => True) (fun _ _ => True) := by
  rw [wp_recordAndSubmit]
  refine ⟨rfl,fun timestamp => ?_⟩
  rw [wp_submitFulfillment]
  split
  · exact wp_mono (sendTransaction_quiet ctx _ _) (fun _ _ => id) (fun _ _ _ => trivial) fun _ _ _ => by split <;> trivial
  · split <;> trivial

theorem fulfillRequest_commands {stdoutOf : String → String} (stdout : StdoutOf answer stdoutOf) (ctx : Context)
    (account : Account) (server : Server) :
    execCommands ((fulfillRequest ctx account server).calls answer) <+:
      seedCommands ctx.cli stdoutOf (slice account.data 40 72) := by
  unfold fulfillRequest
  split_ifs
  · exact List.nil_prefix
  · exact List.nil_prefix
  cases parse : parseRequestAccount account.data with
  | error error => exact List.nil_prefix
  | ok request =>
    obtain ⟨-,seed,-⟩ := parseRequestAccount_ok parse
    simp only [liftExcept_ok,M.bind_apply,M.pure_apply,ret_bind]
    rw [calls_bind,execCommands_append,generateProof_calls,execCommands_exec,seed]
    split
    · next result after proved =>
      obtain ⟨output,answered,parsed⟩ := generateProof_ok answer proved
      rw [stdout _ _ _ answered] at parsed
      have rest : ∀ isValid checked, execCommands (calls answer ((if (!isValid) = true then pure false
          else recordAndSubmit ctx account request result) checked)) = [] := by
        intro isValid checked
        split
        · rfl
        · exact execCommands_calls_of_wp answer (recordAndSubmit_quiet ctx account request result checked)
      rw [M.bind_apply,calls_bind,execCommands_append,verifyProof_calls,execCommands_exec,seedCommands,parsed]
      split
      · rw [rest]
        exact ⟨[],rfl⟩
      · exact ⟨[],rfl⟩
    · exact ⟨_,rfl⟩

theorem processRequestAccount_commands {stdoutOf : String → String} (stdout : StdoutOf answer stdoutOf)
    (ctx : Context) (account : Account) (server : Server) :
    execCommands ((processRequestAccount ctx account server).calls answer) <+:
      seedCommands ctx.cli stdoutOf (slice account.data 40 72) := by
  simp only [processRequestAccount,M.bind_apply,emit_apply,getServer_apply,ret_bind]
  split
  · exact List.nil_prefix
  · rw [calls_tryCatch answer (calls_logAndRethrow answer)]
    exact fulfillRequest_commands answer stdout ctx account _

def SendsTransaction (events : List Event) : Prop :=
  ∃ transaction outcome, Event.io (.sendRawTransaction transaction) outcome ∈ events

theorem SendsTransaction.cons {events : List Event} (event : Event) (sends : SendsTransaction events) :
    SendsTransaction (event :: events) :=
  let ⟨transaction,outcome,sent⟩ := sends
  ⟨transaction,outcome,List.mem_cons_of_mem event sent⟩

theorem SendsTransaction.bind_left {program : Prog α} {next : α → Server → Prog β}
    (sends : SendsTransaction (program.calls answer)) : SendsTransaction ((program.bind next).calls answer) := by
  obtain ⟨transaction,outcome,sent⟩ := sends
  exact ⟨transaction,outcome,by rw [calls_bind]; exact List.mem_append_left _ sent⟩

theorem SendsTransaction.bind_right {program : Prog α} {next : α → Server → Prog β} {value : α} {server : Server}
    (returned : program.interp answer = (.ok value,server)) (sends : SendsTransaction ((next value server).calls answer)) :
    SendsTransaction ((program.bind next).calls answer) := by
  obtain ⟨transaction,outcome,sent⟩ := sends
  exact ⟨transaction,outcome,by rw [calls_bind,returned]; exact List.mem_append_right _ sent⟩

theorem generateProof_interp {cli : MangekyouCLIInterface} {input : Bytes} {server : Server} {output : ExecOutput}
    {result : ProofResult} (answered : answer server (.exec (cli.proveCommand (toHex input))) = Except.ok output)
    (parsed : parseProveOutput output.stdout = some result) :
    (cli.generateProof input server).interp answer =
      (.ok result,server.log (.io (.exec (cli.proveCommand (toHex input))) (Except.ok output))) := by
  simp only [MangekyouCLIInterface.generateProof,tryCatch_apply,interp_handle,execAsync,perform,M.bind_apply,bind,
    interp]
  rw [answered]
  simp [parsed,interp]

theorem verifyProof_interp {cli : MangekyouCLIInterface} {proof output publicKey : String} {input : Bytes}
    {server : Server} {result : ExecOutput}
    (answered : answer server (.exec (cli.verifyCommand proof output publicKey (toHex input))) = Except.ok result) :
    (cli.verifyProof proof output publicKey input server).interp answer =
      (.ok true,server.log (.io (.exec (cli.verifyCommand proof output publicKey (toHex input))) (Except.ok result))) := by
  simp only [MangekyouCLIInterface.verifyProof,tryCatch_apply,interp_handle,execAsync,perform,M.bind_apply,bind,
    interp]
  rw [answered]
  simp [interp]

theorem sendTransaction_sends (ctx : Context) (instruction : Instruction) (server : Server)
    (fetches : ∀ server, ∃ latest, answer server .getLatestBlockhash = Except.ok latest)
    (serializes : ∀ transaction, ctx.serializeError transaction = none) :
    SendsTransaction ((sendTransaction ctx instruction server).calls answer) := by
  obtain ⟨latest,fetched⟩ := fetches server
  simp only [sendTransaction,M.bind_apply,getLatestBlockhash,perform_apply,bind,calls]
  rw [fetched]
  simp only [liftExcept_ok,M.pure_apply,ret_bind,serializes,sendRawTransaction,M.bind_apply,perform_apply,bind,calls]
  exact ⟨_,_,List.mem_cons_of_mem _ (List.mem_cons_self _ _)⟩

end Prog

-- Each run hands `exec` a prefix of the commands the seed decides, the seed as lowercase hex.
theorem execCommands_seedOnly (ctx : Context) (stdoutOf : String → String)
    {answer₁ answer₂ : Server → (request : Request) → request.Outcome}
    (stdout₁ : StdoutOf answer₁ stdoutOf) (stdout₂ : StdoutOf answer₂ stdoutOf)
    (account₁ account₂ : Account) (server₁ server₂ : Server)
    (sameSeed : slice account₁.data 40 72 = slice account₂.data 40 72) :
    execCommands ((processRequestAccount ctx account₁ server₁).calls answer₁) <+:
        seedCommands ctx.cli stdoutOf (slice account₁.data 40 72) ∧
      execCommands ((processRequestAccount ctx account₂ server₂).calls answer₂) <+:
        seedCommands ctx.cli stdoutOf (slice account₁.data 40 72) ∧
      ∀ c ∈ (toHex (slice account₁.data 40 72)).toList, c ∈ "0123456789abcdef".toList :=
  ⟨Prog.processRequestAccount_commands answer₁ stdout₁ ctx account₁ server₁,
    sameSeed ▸ Prog.processRequestAccount_commands answer₂ stdout₂ ctx account₂ server₂,fun _ => mem_toHex⟩

def constantProofCli : Server → (request : Request) → request.Outcome := fun _ request =>
  match request with
  | .getProgramAccounts _ => Except.ok []
  | .exec _ => Except.ok ⟨"Proof: ab\nOutput: cd",""⟩
  | .getLatestBlockhash => Except.ok ⟨"hash",100⟩
  | .sendRawTransaction _ => Except.ok "sig"
  | .confirmTransaction .. => Except.ok ⟨none⟩
  | .sleep _ => ()
  | .now => (1000 : Nat)

-- A record sharing only the seed with the first; both runs pass the two seed commands.
set_option maxRecDepth 4000 in
theorem execCommands_seedOnly_differentRecords :
    let ctx : Context := ⟨[],[2],⟨"mangekyou",⟨"secret","cd"⟩⟩,3000,fun _ _ => [],fun _ => none⟩
    let stdoutOf : String → String := fun _ => "Proof: ab\nOutput: cd"
    let record₁ : Account := ⟨[1],requestDiscriminator ++ List.replicate 158 0⟩
    let record₂ : Account := ⟨[2],requestDiscriminator ++ List.replicate 32 7 ++ List.replicate 32 0 ++
      List.replicate 32 9 ++ List.replicate 25 0 ++ [3,5,0,0,0] ++ List.replicate 32 6⟩
    StdoutOf constantProofCli stdoutOf ∧ slice record₁.data 40 72 = slice record₂.data 40 72 ∧
      execCommands ((processRequestAccount ctx record₁ (initialServer 0)).calls constantProofCli) <+:
        seedCommands ctx.cli stdoutOf (slice record₁.data 40 72) ∧
      execCommands ((processRequestAccount ctx record₂ (initialServer 0)).calls constantProofCli) <+:
        seedCommands ctx.cli stdoutOf (slice record₁.data 40 72) ∧
      (∀ c ∈ (toHex (slice record₁.data 40 72)).toList, c ∈ "0123456789abcdef".toList) ∧
      execCommands ((processRequestAccount ctx record₁ (initialServer 0)).calls constantProofCli) =
        seedCommands ctx.cli stdoutOf (slice record₁.data 40 72) ∧
      execCommands ((processRequestAccount ctx record₂ (initialServer 0)).calls constantProofCli) =
        seedCommands ctx.cli stdoutOf (slice record₁.data 40 72) := by
  intro ctx stdoutOf record₁ record₂
  have stdout : StdoutOf constantProofCli stdoutOf := fun _ _ _ answered => by cases answered; rfl
  have same : slice record₁.data 40 72 = slice record₂.data 40 72 := by decide
  obtain ⟨first,second,hex⟩ :=
    execCommands_seedOnly ctx stdoutOf stdout stdout record₁ record₂ (initialServer 0) (initialServer 0) same
  exact ⟨stdout,same,first,second,hex,by decide,by decide⟩

end KamuiVrf
