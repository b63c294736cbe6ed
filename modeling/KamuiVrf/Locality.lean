import KamuiVrf.Faults

namespace KamuiVrf

-- What code working on one request does to the state, seen from the request's key: the
-- entry it leaves when it writes one, the counters it adds, and the events it appends.
structure Delta where
  entry : Option (Option ProcessedInfo)
  processed : Nat
  fulfilled : Nat
  errors : Nat
  events : List Event

def Delta.zero : Delta := ⟨none,0,0,0,[]⟩

def Delta.log (event : Event) : Delta := ⟨none,0,0,0,[event]⟩

def Delta.append (first second : Delta) : Delta :=
  ⟨second.entry.or first.entry,first.processed + second.processed,first.fulfilled + second.fulfilled,
    first.errors + second.errors,first.events ++ second.events⟩

def Server.apply (server : Server) (key : Bytes) (delta : Delta) : Server :=
  ⟨fun other => if other = key then delta.entry.getD (server.processedRequests key) else server.processedRequests other,
    server.isRunning,
    ⟨server.stats.startTime,server.stats.requestsProcessed + delta.processed,
      server.stats.requestsFulfilled + delta.fulfilled,server.stats.errors + delta.errors⟩,
    server.history ++ delta.events⟩

namespace Server

@[simp] theorem apply_processedRequests (server : Server) (key : Bytes) (delta : Delta) (other : Bytes) :
    (server.apply key delta).processedRequests other =
      if other = key then delta.entry.getD (server.processedRequests key) else server.processedRequests other := rfl
@[simp] theorem apply_stats (server : Server) (key : Bytes) (delta : Delta) :
    (server.apply key delta).stats = ⟨server.stats.startTime,server.stats.requestsProcessed + delta.processed,
      server.stats.requestsFulfilled + delta.fulfilled,server.stats.errors + delta.errors⟩ := rfl
@[simp] theorem apply_history (server : Server) (key : Bytes) (delta : Delta) :
    (server.apply key delta).history = server.history ++ delta.events := rfl
@[simp] theorem apply_isRunning (server : Server) (key : Bytes) (delta : Delta) :
    (server.apply key delta).isRunning = server.isRunning := rfl

theorem apply_append (server : Server) (key : Bytes) (first second : Delta) :
    (server.apply key first).apply key second = server.apply key (first.append second) := by
  obtain ⟨_ | entry,_,_,_,_⟩ := second
  all_goals ext : 1
  all_goals try funext other; by_cases same : other = key
  all_goals simp [*,Delta.append,Nat.add_assoc]

-- A delta that sets no entry leaves every entry alone.
theorem apply_processedRequests_of_none (server : Server) (key : Bytes) {delta : Delta} (none : delta.entry = none) :
    (server.apply key delta).processedRequests = server.processedRequests :=
  funext fun other => by by_cases same : other = key <;> simp [same,none]

-- Each change the per-request code makes is an `apply` at the request's key.
theorem apply_zero (server : Server) (key : Bytes) : server.apply key .zero = server := by
  ext : 1 <;> simp [apply_processedRequests_of_none,Delta.zero]

theorem log_eq_apply (server : Server) (key : Bytes) (event : Event) :
    server.log event = server.apply key (.log event) := by
  ext : 1 <;> simp [apply_processedRequests_of_none,Delta.log]

theorem countError_eq_apply (server : Server) (key : Bytes) :
    server.countError = server.apply key ⟨none,0,0,1,[]⟩ := by
  ext : 1 <;> simp [apply_processedRequests_of_none]

theorem countProcessed_eq_apply (server : Server) (key : Bytes) :
    server.countProcessed = server.apply key ⟨none,1,0,0,[]⟩ := by
  ext : 1 <;> simp [apply_processedRequests_of_none]

theorem countFulfilled_eq_apply (server : Server) (key : Bytes) :
    server.countFulfilled = server.apply key ⟨none,0,1,0,[]⟩ := by
  ext : 1 <;> simp [apply_processedRequests_of_none]

theorem record_eq_apply (server : Server) (key : Bytes) (info : ProcessedInfo) :
    (server.setProcessed key info).log (.recorded key info) = server.apply key ⟨some (some info),0,0,0,[.recorded key info]⟩ := by
  ext : 1
  · funext other
    simp
  all_goals simp

theorem deleteProcessed_eq_apply (server : Server) (key : Bytes) :
    server.deleteProcessed key = server.apply key ⟨some none,0,0,0,[]⟩ := by
  ext : 1
  · funext other
    simp
  all_goals simp

end Server

namespace Prog

theorem interp_bind (program : Prog α) (next : α → Server → Prog β)
    (answer : Server → (request : Request) → request.Outcome) :
    (program.bind next).interp answer =
      match program.interp answer with
      | (.ok value,server) => (next value server).interp answer
      | (.error error,server) => (.error error,server) := by
  induction program with
  | ret value server => rfl
  | raise error server => rfl
  | call server request resume ih => exact ih _

theorem interp_handle (program : Prog α) (handler : JsValue → Server → Prog α)
    (answer : Server → (request : Request) → request.Outcome) :
    (program.handle handler).interp answer =
      match program.interp answer with
      | (.ok value,server) => (.ok value,server)
      | (.error error,server) => (handler error server).interp answer := by
  induction program with
  | ret value server => rfl
  | raise error server => rfl
  | call server request resume ih => exact ih _

-- A computation that never throws ends with a value, whatever answers its calls.
theorem interp_ok {program : Prog α} (holds : program.wp (fun _ _ => True) (fun _ _ => True) (fun _ _ => False))
    (answer : Server → (request : Request) → request.Outcome) : ∃ value, (program.interp answer).1 = .ok value := by
  induction program with
  | ret value server => exact ⟨value,rfl⟩
  | raise error server => exact holds.elim
  | call server request resume ih => exact ih _ (holds.2 _)

end Prog

def Request.isEnumeration : Request → Bool
  | .getProgramAccounts _ => true
  | _ => false

-- Collaborators that answer every call but the enumeration as `answer` does, each
-- outcome a function of the request alone.
def AnswersAs (answer other : (request : Request) → request.Outcome) : Prop :=
  ∀ request, request.isEnumeration = false → other request = answer request

-- Under such collaborators `program` sees and changes the state only through `key`'s
-- entry: what it returns and what it does are a function of that entry.
def Local (answer : (request : Request) → request.Outcome) (key : Bytes) (program : M α) : Prop :=
  ∃ effect : Option ProcessedInfo → Except JsValue α × Delta, ∀ other, AnswersAs answer other → ∀ server,
    (program server).interp (fun _ => other) =
      ((effect (server.processedRequests key)).1,server.apply key (effect (server.processedRequests key)).2)

namespace Local

variable {answer : (request : Request) → request.Outcome} {key : Bytes}

theorem pure (value : α) : Local answer key (pure value) :=
  ⟨fun _ => (.ok value,.zero),fun _ _ server => by rw [Server.apply_zero]; rfl⟩

theorem throwJs (error : JsValue) : Local answer key (throwJs error : M α) :=
  ⟨fun _ => (.error error,.zero),fun _ _ server => by rw [Server.apply_zero]; rfl⟩

theorem modify {change : Server → Server} {delta : Delta} (acts : ∀ server, change server = server.apply key delta) :
    Local answer key (modifyServer change) :=
  ⟨fun _ => (.ok (),delta),fun _ _ server => by rw [← acts]; rfl⟩

theorem emit (event : Event) : Local answer key (emit event) := modify fun server => server.log_eq_apply key event

theorem perform {request : Request} (quiet : request.isEnumeration = false) : Local answer key (perform request) :=
  ⟨fun _ => (.ok (answer request),.log (.io request (answer request))),fun other agrees server => by
    show (Except.ok (other request),server.log (.io request (other request))) = _
    rw [agrees request quiet,server.log_eq_apply key]⟩

theorem bind {program : M α} {next : α → M β} (first : Local answer key program)
    (rest : ∀ value, Local answer key (next value)) : Local answer key (program >>= next) := by
  obtain ⟨effect,runs⟩ := first
  choose effects runsRest using rest
  refine ⟨fun entry => match effect entry with
    | (.ok value,delta) => ((effects value (delta.entry.getD entry)).1,delta.append (effects value (delta.entry.getD entry)).2)
    | (.error error,delta) => (.error error,delta),fun other agrees server => ?_⟩
  rw [M.bind_apply,Prog.interp_bind,runs other agrees server]
  dsimp only
  generalize effect (server.processedRequests key) = outcome
  rcases outcome with ⟨_ | value,delta⟩
  · rfl
  · dsimp only
    rw [runsRest value other agrees,Server.apply_processedRequests,if_pos rfl,Server.apply_append]

theorem tryCatch {body : M α} {handler : JsValue → M α} (first : Local answer key body)
    (rest : ∀ error, Local answer key (handler error)) : Local answer key (tryCatch body handler) := by
  obtain ⟨effect,runs⟩ := first
  choose effects runsRest using rest
  refine ⟨fun entry => match effect entry with
    | (.ok value,delta) => (.ok value,delta)
    | (.error error,delta) => ((effects error (delta.entry.getD entry)).1,delta.append (effects error (delta.entry.getD entry)).2),
    fun other agrees server => ?_⟩
  rw [tryCatch_apply,Prog.interp_handle,runs other agrees server]
  dsimp only
  generalize effect (server.processedRequests key) = outcome
  rcases outcome with ⟨error | _,delta⟩
  · dsimp only
    rw [runsRest error other agrees,Server.apply_processedRequests,if_pos rfl,Server.apply_append]
  · rfl

-- Code that reads the state, and goes on the same way for states with the same entry at `key`.
theorem read {next : Server → M α} (rest : ∀ server, Local answer key (next server))
    (depends : ∀ first second : Server, first.processedRequests key = second.processedRequests key →
      next first = next second) :
    Local answer key (getServer >>= next) := by
  choose effects runs using rest
  let canonical : Option ProcessedInfo → Server := fun entry => ⟨fun _ => entry,false,⟨0,0,0,0⟩,[]⟩
  refine ⟨fun entry => effects (canonical entry) entry,fun other agrees server => ?_⟩
  show (next server server).interp _ = _
  rw [depends server (canonical (server.processedRequests key)) rfl]
  exact runs _ other agrees server

theorem liftExcept (outcome : Except JsValue α) : Local answer key (liftExcept outcome) := by
  cases outcome
  · exact throwJs _
  · exact pure _

theorem readMessage (error : JsValue) : Local answer key (readMessage error) := by
  unfold KamuiVrf.readMessage
  split
  · exact throwJs _
  · exact pure _

theorem logAndRethrow (error : JsValue) : Local answer key (logAndRethrow error : M α) :=
  (readMessage error).bind fun _ => throwJs error

theorem logAndReturn (value : α) (error : JsValue) : Local answer key (logAndReturn value error) :=
  (readMessage error).bind fun _ => pure value

-- A local computation that never throws returns a value fixed by the entry.
theorem total {program : M α} (confined : Local answer key program)
    (never : ∀ server, (program server).wp (fun _ _ => True) (fun _ _ => True) (fun _ _ => False)) :
    ∃ (value : Option ProcessedInfo → α) (delta : Option ProcessedInfo → Delta), ∀ other, AnswersAs answer other →
      ∀ server, (program server).interp (fun _ => other) =
        (.ok (value (server.processedRequests key)),server.apply key (delta (server.processedRequests key))) := by
  obtain ⟨effect,runs⟩ := confined
  have returns : ∀ entry, ∃ value, (effect entry).1 = .ok value := by
    intro entry
    obtain ⟨value,result⟩ := Prog.interp_ok (never ⟨fun _ => entry,false,⟨0,0,0,0⟩,[]⟩) fun _ => answer
    rw [runs answer (fun _ _ => rfl)] at result
    exact ⟨value,result⟩
  choose value returned using returns
  exact ⟨value,fun entry => (effect entry).2,fun other agrees server => by rw [runs other agrees,returned]⟩

end Local

section Calls

variable {answer : (request : Request) → request.Outcome} {key : Bytes}

theorem Local.execAsync (command : String) : Local answer key (execAsync command) :=
  (@Local.perform answer key (.exec command) rfl).bind fun outcome => Local.liftExcept outcome

theorem Local.getLatestBlockhash : Local answer key getLatestBlockhash :=
  (@Local.perform answer key .getLatestBlockhash rfl).bind fun outcome => Local.liftExcept outcome

theorem Local.sendRawTransaction (transaction : Transaction) : Local answer key (sendRawTransaction transaction) :=
  (@Local.perform answer key (.sendRawTransaction transaction) rfl).bind fun outcome => Local.liftExcept outcome

theorem Local.confirmTransaction (signature blockhash : String) (height : Nat) :
    Local answer key (confirmTransaction signature blockhash height) :=
  (@Local.perform answer key (.confirmTransaction signature blockhash height) rfl).bind fun outcome => Local.liftExcept outcome

theorem Local.sleep (ms : Nat) : Local answer key (sleep ms) :=
  (@Local.perform answer key (.sleep ms) rfl).bind fun _ => Local.pure ()

theorem Local.dateNow : Local answer key dateNow := @Local.perform answer key .now rfl

theorem Local.generateProof (cli : MangekyouCLIInterface) (input : Bytes) : Local answer key (cli.generateProof input) := by
  refine Local.tryCatch ((Local.execAsync _).bind fun result => ?_) Local.logAndRethrow
  split
  · exact Local.pure _
  · exact Local.throwJs _

theorem Local.verifyProof (cli : MangekyouCLIInterface) (proof output publicKey : String) (input : Bytes) :
    Local answer key (cli.verifyProof proof output publicKey input) :=
  Local.tryCatch ((Local.execAsync _).bind fun _ => Local.pure true) (Local.logAndReturn false)

theorem Local.sendTransaction (ctx : Context) (instruction : Instruction) :
    Local answer key (sendTransaction ctx instruction) := by
  refine Local.getLatestBlockhash.bind fun latest => ?_
  dsimp only
  split
  · exact Local.throwJs _
  · exact (Local.sendRawTransaction _).bind fun _ => Local.getLatestBlockhash.bind fun _ =>
      (Local.confirmTransaction _ _ _).bind fun _ => Local.pure _

theorem Local.submitFulfillment (ctx : Context) (requestAccountPubkey : Bytes) (proofResult : ProofResult)
    (requestId : Bytes) (poolId requestIndex : Nat) (subscriptionPDA : Bytes) :
    Local answer key (submitFulfillment ctx requestAccountPubkey proofResult requestId poolId requestIndex subscriptionPDA) :=
  Local.tryCatch ((Local.liftExcept _).bind fun instruction => Local.sendTransaction ctx instruction)
    (Local.logAndReturn false)

end Calls

section Account

variable {answer : (request : Request) → request.Outcome} (ctx : Context) (account : Account)

theorem Local.recordAndSubmit (request : ParsedRequest) (proofResult : ProofResult) :
    Local answer account.pubkey (recordAndSubmit ctx account request proofResult) := by
  refine Local.dateNow.bind fun timestamp => (Local.modify fun server => Server.record_eq_apply server _ _).bind
    fun _ => (Local.modify fun server => Server.countProcessed_eq_apply server _).bind fun _ => (Local.emit _).bind
      fun _ => (Local.submitFulfillment ..).bind fun success => (Local.emit _).bind fun _ => ?_
  split
  · exact (Local.modify fun server => Server.countFulfilled_eq_apply server _).bind fun _ => Local.pure true
  · exact Local.pure false

theorem Local.fulfillRequest : Local answer account.pubkey (fulfillRequest ctx account) := by
  unfold KamuiVrf.fulfillRequest
  dsimp only
  split
  · exact Local.pure false
  split
  · exact Local.pure false
  refine (Local.liftExcept _).bind fun request => (Local.generateProof ..).bind fun proofResult =>
    (Local.verifyProof ..).bind fun isValid => ?_
  split
  · exact Local.pure false
  · exact Local.recordAndSubmit ctx account request proofResult

theorem Local.processRequestAccount : Local answer account.pubkey (processRequestAccount ctx account) := by
  refine (Local.emit _).bind fun _ => Local.read (fun server => ?_) fun first second same => by simp only [same]
  split
  · exact Local.pure false
  · exact Local.tryCatch (Local.fulfillRequest ctx account) Local.logAndRethrow

theorem Local.processAccount : Local answer account.pubkey (processAccount ctx account) := by
  refine Local.tryCatch ((Local.processRequestAccount ctx account).bind fun processed => ?_) fun error =>
    (Local.readMessage error).bind fun _ => Local.modify fun server => Server.countError_eq_apply server _
  split
  · exact Local.sleep 1000
  · exact Local.pure ()

theorem Local.checkRequestStatus (data : Bytes) : Local answer account.pubkey (checkRequestStatus data) := by
  unfold KamuiVrf.checkRequestStatus
  split
  · exact Local.pure _
  · exact Local.logAndReturn false _

theorem Local.isRequestPending : Local answer account.pubkey (isRequestPending account) := by
  refine Local.read (fun server => ?_) fun first second same => by simp only [same]
  split
  · refine Local.dateNow.bind fun now => ?_
    split
    · exact Local.pure false
    · exact (Local.modify fun server => Server.deleteProcessed_eq_apply server _).bind fun _ =>
        Local.checkRequestStatus account _
  · exact Local.checkRequestStatus account _

theorem Local.scanAccount : Local answer account.pubkey (scanAccount account) := by
  unfold KamuiVrf.scanAccount
  split
  · exact Local.pure false
  split
  · exact Local.isRequestPending account
  · exact Local.pure false

end Account

end KamuiVrf
