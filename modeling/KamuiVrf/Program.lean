import KamuiVrf.Node

namespace KamuiVrf

structure Account where
  pubkey : Bytes
  data : Bytes
deriving DecidableEq, Repr

structure ExecOutput where
  stdout : String
  stderr : String
deriving DecidableEq, Repr

structure LatestBlockhash where
  blockhash : String
  lastValidBlockHeight : Nat
deriving DecidableEq, Repr

structure AccountMeta where
  pubkey : Bytes
  isSigner : Bool
  isWritable : Bool
deriving DecidableEq, Repr

structure Instruction where
  keys : List AccountMeta
  programId : Bytes
  data : Bytes
deriving DecidableEq, Repr

-- The signed transaction whose `serialize()` is handed to `sendRawTransaction`.
structure Transaction where
  instructions : List Instruction
  recentBlockhash : String
  feePayer : Bytes
deriving DecidableEq, Repr

-- `confirmation.value.err`: a transaction error, or null.
structure Confirmation where
  err : Option String
deriving DecidableEq, Repr

-- Every call the server awaits. `now` is `Date.now()`: it answers synchronously,
-- so the event loop never runs a signal handler there.
inductive Request where
  | getProgramAccounts (programId : Bytes)
  | exec (command : String)
  | getLatestBlockhash
  | sendRawTransaction (transaction : Transaction)
  | confirmTransaction (signature blockhash : String) (lastValidBlockHeight : Nat)
  | sleep (ms : Nat)
  | now
deriving DecidableEq, Repr

-- A promise of the ledger client or of `execAsync` resolves or rejects with any value;
-- a timer only resolves and the clock only reads.
def Request.Outcome : Request → Type
  | .getProgramAccounts _ => Except JsValue (List Account)
  | .exec _ => Except JsValue ExecOutput
  | .getLatestBlockhash => Except JsValue LatestBlockhash
  | .sendRawTransaction _ => Except JsValue String
  | .confirmTransaction .. => Except JsValue Confirmation
  | .sleep _ => Unit
  | .now => Nat

def Request.yields : Request → Bool
  | .now => false
  | _ => true

structure ProcessedInfo where
  timestamp : Nat
  proof : String
  output : String
  seed : String
  requestId : String
  poolId : Nat
  requestIndex : Nat
deriving DecidableEq, Repr

@[ext] structure Stats where
  startTime : Nat
  requestsProcessed : Nat
  requestsFulfilled : Nat
  errors : Nat
deriving DecidableEq, Repr

-- Auxiliary history: every awaited call with its outcome, and the points of the
-- source the properties speak about. No modelled function reads it.
inductive Event where
  | io (request : Request) (outcome : request.Outcome)
  | processing (account : Account)
  | recorded (pubkey : Bytes) (info : ProcessedInfo)
  -- `submitFulfillment` is called, after the entry was written with `timestamp`
  | submitting (pubkey : Bytes) (timestamp : Nat)
  | submitted (pubkey : Bytes) (success : Bool)

-- `processedRequests` is keyed by `pubkey.toString()`, a bijection of the key bytes.
@[ext] structure Server where
  processedRequests : Bytes → Option ProcessedInfo
  isRunning : Bool
  stats : Stats
  history : List Event

def Server.log (server : Server) (event : Event) : Server :=
  { server with history := server.history ++ [event] }

@[simp] theorem Server.log_processedRequests (server : Server) (event : Event) :
    (server.log event).processedRequests = server.processedRequests := rfl
@[simp] theorem Server.log_isRunning (server : Server) (event : Event) :
    (server.log event).isRunning = server.isRunning := rfl
@[simp] theorem Server.log_stats (server : Server) (event : Event) :
    (server.log event).stats = server.stats := rfl
@[simp] theorem Server.log_history (server : Server) (event : Event) :
    (server.log event).history = server.history ++ [event] := rfl

def Event.isIo : Event → Bool
  | .io .. => true
  | _ => false

@[simp] theorem Event.isIo_io (request : Request) (outcome : request.Outcome) : (Event.io request outcome).isIo := rfl

-- `after` is `before` with the outcomes of awaited calls appended to its history, and
-- nothing else changed.
def IoLog (before after : Server) : Prop :=
  after.processedRequests = before.processedRequests ∧ after.isRunning = before.isRunning ∧
    after.stats = before.stats ∧ ∃ outcomes, after.history = before.history ++ outcomes ∧ ∀ event ∈ outcomes, event.isIo

theorem IoLog.refl (server : Server) : IoLog server server := ⟨rfl,rfl,rfl,[],by simp⟩

theorem IoLog.trans {first second third : Server} (before : IoLog first second) (after : IoLog second third) :
    IoLog first third := by
  obtain ⟨entries,running,stats,outcomes,history,io⟩ := before
  obtain ⟨entries₂,running₂,stats₂,outcomes₂,history₂,io₂⟩ := after
  refine ⟨entries₂.trans entries,running₂.trans running,stats₂.trans stats,outcomes ++ outcomes₂,?_,?_⟩
  · simp [history₂,history]
  · simp only [List.mem_append]
    rintro event (early|late)
    exacts [io event early,io₂ event late]

theorem IoLog.io {before after : Server} (logged : IoLog before after) (request : Request) (outcome : request.Outcome) :
    IoLog before (after.log (.io request outcome)) :=
  logged.trans ⟨rfl,rfl,rfl,[.io request outcome],rfl,by simp⟩

-- An async computation of the server: it returns, throws, or is suspended on a
-- call with the state it has reached, waiting for any outcome of that call.
inductive Prog (α : Type) where
  | ret (value : α) (server : Server)
  | raise (error : JsValue) (server : Server)
  | call (server : Server) (request : Request) (resume : request.Outcome → Prog α)

namespace Prog

def bind : Prog α → (α → Server → Prog β) → Prog β
  | ret value server,next => next value server
  | raise error server,_ => raise error server
  | call server request resume,next => call server request fun outcome => (resume outcome).bind next

def handle : Prog α → (JsValue → Server → Prog α) → Prog α
  | ret value server,_ => ret value server
  | raise error server,handler => handler error server
  | call server request resume,handler => call server request fun outcome => (resume outcome).handle handler

@[simp] theorem ret_bind (value : α) (server : Server) (next : α → Server → Prog β) :
    (ret value server).bind next = next value server := rfl
@[simp] theorem raise_bind (error : JsValue) (server : Server) (next : α → Server → Prog β) :
    (raise error server).bind next = raise error server := rfl
@[simp] theorem ret_handle (value : α) (server : Server) (handler : JsValue → Server → Prog α) :
    (ret value server).handle handler = ret value server := rfl
@[simp] theorem raise_handle (error : JsValue) (server : Server) (handler : JsValue → Server → Prog α) :
    (raise error server).handle handler = handler error server := rfl

-- Every suspended call satisfies `pending`, every return `done`, every throw `failed`,
-- whatever the outcomes of the calls.
def wp (pending : Server → Request → Prop) (done : α → Server → Prop)
    (failed : JsValue → Server → Prop) : Prog α → Prop
  | ret value server => done value server
  | raise error server => failed error server
  | call server request resume => pending server request ∧ ∀ outcome, (resume outcome).wp pending done failed

@[simp] theorem wp_ret : (ret value server : Prog α).wp pending done failed = done value server := rfl
@[simp] theorem wp_raise : (raise error server : Prog α).wp pending done failed = failed error server := rfl
@[simp] theorem wp_call {resume : request.Outcome → Prog α} :
    (call server request resume).wp pending done failed =
      (pending server request ∧ ∀ outcome, (resume outcome).wp pending done failed) := rfl

@[simp] theorem wp_bind (program : Prog α) (next : α → Server → Prog β) :
    (program.bind next).wp pending done failed ↔
      program.wp pending (fun value server => (next value server).wp pending done failed) failed := by
  induction program with
  | ret value server => rfl
  | raise error server => rfl
  | call server request resume ih => simp only [bind,wp_call,ih]

@[simp] theorem wp_handle (program : Prog α) (handler : JsValue → Server → Prog α) :
    (program.handle handler).wp pending done failed ↔
      program.wp pending done (fun error server => (handler error server).wp pending done failed) := by
  induction program with
  | ret value server => rfl
  | raise error server => rfl
  | call server request resume ih => simp only [handle,wp_call,ih]

theorem wp_mono {program : Prog α} (holds : program.wp pending done failed)
    (onPending : ∀ server request, pending server request → pending₂ server request)
    (onDone : ∀ value server, done value server → done₂ value server)
    (onFailed : ∀ error server, failed error server → failed₂ error server) :
    program.wp pending₂ done₂ failed₂ := by
  induction program with
  | ret value server => exact onDone _ _ holds
  | raise error server => exact onFailed _ _ holds
  | call server request resume ih =>
    exact ⟨onPending _ _ holds.1,fun outcome => ih outcome (holds.2 outcome)⟩

theorem wp_congr {program : Prog α} (sameDone : ∀ value server, done value server ↔ done₂ value server)
    (sameFailed : ∀ error server, failed error server ↔ failed₂ error server) :
    program.wp pending done failed ↔ program.wp pending done₂ failed₂ :=
  ⟨fun holds => wp_mono holds (fun _ _ => id) (fun value server => (sameDone value server).1)
      (fun error server => (sameFailed error server).1),
    fun holds => wp_mono holds (fun _ _ => id) (fun value server => (sameDone value server).2)
      (fun error server => (sameFailed error server).2)⟩

theorem wp_and {program : Prog α} (first : program.wp pending done failed)
    (second : program.wp pending₂ done₂ failed₂) :
    program.wp (fun server request => pending server request ∧ pending₂ server request)
      (fun value server => done value server ∧ done₂ value server)
      (fun error server => failed error server ∧ failed₂ error server) := by
  induction program with
  | ret value server => exact ⟨first,second⟩
  | raise error server => exact ⟨first,second⟩
  | call server request resume ih =>
    exact ⟨⟨first.1,second.1⟩,fun outcome => ih outcome (first.2 outcome) (second.2 outcome)⟩

theorem wp_true (program : Prog α) : program.wp (fun _ _ => True) (fun _ _ => True) (fun _ _ => True) := by
  induction program with
  | ret value server => trivial
  | raise error server => trivial
  | call server request resume ih => exact ⟨trivial,ih⟩

-- The state the computation is in now: at its call, or at its end.
def current : Prog α → Server
  | ret _ server => server
  | raise _ server => server
  | call server _ _ => server

-- Each state the computation is observed in is related by `grows` to the one
-- observed before it, starting from `before`.
def Steps (grows : Server → Server → Prop) (before : Server) : Prog α → Prop
  | ret _ server => grows before server
  | raise _ server => grows before server
  | call server _ resume => grows before server ∧ ∀ outcome, (resume outcome).Steps grows server

theorem Steps.first {grows : Server → Server → Prop} {program : Prog α} {before : Server}
    (steps : program.Steps grows before) : grows before program.current := by
  cases program with
  | ret value server => exact steps
  | raise error server => exact steps
  | call server request resume => exact steps.1

theorem Steps.restart {grows : Server → Server → Prop} [IsRefl Server grows] {program : Prog α} {before : Server}
    (steps : program.Steps grows before) : program.Steps grows program.current := by
  cases program with
  | ret value server => exact IsRefl.refl server
  | raise error server => exact IsRefl.refl server
  | call server request resume => exact ⟨IsRefl.refl server,steps.2⟩

section Preorder
variable {grows : Server → Server → Prop} [IsTrans Server grows]


theorem Steps.widen {program : Prog α} {before middle : Server} (first : grows before middle)
    (steps : program.Steps grows middle) : program.Steps grows before := by
  cases program with
  | ret value server => exact IsTrans.trans _ _ _ first steps
  | raise error server => exact IsTrans.trans _ _ _ first steps
  | call server request resume => exact ⟨IsTrans.trans _ _ _ first steps.1,steps.2⟩

-- Sequencing, where what the first part returns with is known from its `wp`.
theorem Steps.bind_wp {program : Prog α} {next : α → Server → Prog β} {before : Server} {post : α → Server → Prop}
    {pending : Server → Request → Prop} {failed : JsValue → Server → Prop}
    (steps : program.Steps grows before) (holds : program.wp pending post failed)
    (rest : ∀ value server, post value server → (next value server).Steps grows server) :
    (program.bind next).Steps grows before := by
  induction program generalizing before with
  | ret value server => exact Steps.widen steps (rest value server holds)
  | raise error server => exact steps
  | call server request resume ih => exact ⟨steps.1,fun outcome => ih outcome (steps.2 outcome) (holds.2 outcome)⟩

theorem Steps.handle_wp {program : Prog α} {handler : JsValue → Server → Prog α} {before : Server}
    {post : JsValue → Server → Prop} {pending : Server → Request → Prop} {done : α → Server → Prop}
    (steps : program.Steps grows before) (holds : program.wp pending done post)
    (rest : ∀ error server, post error server → (handler error server).Steps grows server) :
    (program.handle handler).Steps grows before := by
  induction program generalizing before with
  | ret value server => exact steps
  | raise error server => exact Steps.widen steps (rest error server holds)
  | call server request resume ih => exact ⟨steps.1,fun outcome => ih outcome (steps.2 outcome) (holds.2 outcome)⟩

-- Every state the computation ends in is related to the one it started from.
theorem Steps.wp_grows {program : Prog α} {before : Server} (steps : program.Steps grows before) :
    program.wp (fun _ _ => True) (fun _ after => grows before after) (fun _ after => grows before after) := by
  induction program generalizing before with
  | ret value server => exact steps
  | raise error server => exact steps
  | call server request resume ih => exact ⟨trivial,fun outcome => ih outcome (Steps.widen steps.1 (steps.2 outcome))⟩

theorem Steps.bind {program : Prog α} {next : α → Server → Prog β} {before : Server}
    (steps : program.Steps grows before) (rest : ∀ value server, (next value server).Steps grows server) :
    (program.bind next).Steps grows before :=
  steps.bind_wp program.wp_true fun value server _ => rest value server

theorem Steps.handle {program : Prog α} {handler : JsValue → Server → Prog α} {before : Server}
    (steps : program.Steps grows before) (rest : ∀ error server, (handler error server).Steps grows server) :
    (program.handle handler).Steps grows before :=
  steps.handle_wp program.wp_true fun error server _ => rest error server

end Preorder

-- Run to the end with a fixed way of answering each call.
def interp (answer : Server → (request : Request) → request.Outcome) : Prog α → Except JsValue α × Server
  | ret value server => (.ok value,server)
  | raise error server => (.error error,server)
  | call server request resume => (resume (answer server request)).interp answer

end Prog

def M (α : Type) : Type := Server → Prog α

instance : Monad M where
  pure value server := .ret value server
  bind program next server := (program server).bind next

@[simp] theorem M.pure_apply (value : α) (server : Server) : (pure value : M α) server = .ret value server := rfl
@[simp] theorem M.bind_apply (program : M α) (next : α → M β) (server : Server) :
    (program >>= next) server = (program server).bind next := rfl

def getServer : M Server := fun server => .ret server server
def modifyServer (change : Server → Server) : M Unit := fun server => .ret () (change server)
def throwJs (error : JsValue) : M α := fun server => .raise error server
def tryCatch (body : M α) (handler : JsValue → M α) : M α := fun server => (body server).handle handler
def emit (event : Event) : M Unit := modifyServer (·.log event)

def perform (request : Request) : M request.Outcome := fun server =>
  .call server request fun outcome => .ret outcome (server.log (.io request outcome))

def liftExcept : Except JsValue α → M α
  | .ok value => pure value
  | .error error => throwJs error

@[simp] theorem getServer_apply (server : Server) : getServer server = .ret server server := rfl
@[simp] theorem modifyServer_apply (change : Server → Server) (server : Server) :
    modifyServer change server = .ret () (change server) := rfl
@[simp] theorem throwJs_apply (error : JsValue) (server : Server) :
    (throwJs error : M α) server = .raise error server := rfl
@[simp] theorem tryCatch_apply (body : M α) (handler : JsValue → M α) (server : Server) :
    tryCatch body handler server = (body server).handle handler := rfl
@[simp] theorem emit_apply (event : Event) (server : Server) : emit event server = .ret () (server.log event) := rfl
@[simp] theorem perform_apply (request : Request) (server : Server) :
    perform request server = .call server request fun outcome => .ret outcome (server.log (.io request outcome)) := rfl
@[simp] theorem liftExcept_ok (value : α) : (liftExcept (.ok value) : M α) = pure value := rfl
@[simp] theorem liftExcept_error (error : JsValue) : (liftExcept (.error error) : M α) = throwJs error := rfl

-- The awaited collaborator calls, one per kind of request.
def getProgramAccountsCall (programId : Bytes) : M (List Account) := do
  let outcome : Except JsValue (List Account) ← perform (.getProgramAccounts programId)
  liftExcept outcome

def execAsync (command : String) : M ExecOutput := do
  let outcome : Except JsValue ExecOutput ← perform (.exec command)
  liftExcept outcome

def getLatestBlockhash : M LatestBlockhash := do
  let outcome : Except JsValue LatestBlockhash ← perform .getLatestBlockhash
  liftExcept outcome

def sendRawTransaction (transaction : Transaction) : M String := do
  let outcome : Except JsValue String ← perform (.sendRawTransaction transaction)
  liftExcept outcome

def confirmTransaction (signature blockhash : String) (lastValidBlockHeight : Nat) : M Confirmation := do
  let outcome : Except JsValue Confirmation ← perform (.confirmTransaction signature blockhash lastValidBlockHeight)
  liftExcept outcome

def sleep (ms : Nat) : M Unit := do
  let _ ← perform (.sleep ms)

def dateNow : M Nat := perform .now

-- `error.message`, evaluated as an argument of a `Logger` call in a catch handler.
def readMessage (error : JsValue) : M Unit :=
  if error.isNullish then throwJs readMessageError else pure ()

-- `catch (error) { Logger.error(..., error.message); throw error; }`
def logAndRethrow (error : JsValue) : M α := do
  readMessage error
  throwJs error

-- `catch (error) { Logger...(..., error.message); return value; }`
def logAndReturn (value : α) (error : JsValue) : M α := do
  readMessage error
  pure value

namespace Prog

-- Spec lemmas of the awaited calls: the call is suspended in the state it was made
-- in, and each outcome is logged before the caller resumes.
theorem wp_perform (request : Request) (server : Server) {pending : Server → Request → Prop}
    {done : request.Outcome → Server → Prop} {failed : JsValue → Server → Prop} :
    (perform request server).wp pending done failed ↔
      pending server request ∧ ∀ outcome : request.Outcome, done outcome (server.log (.io request outcome)) := Iff.rfl

@[simp] theorem wp_liftExcept (outcome : Except JsValue α) (server : Server) :
    (liftExcept outcome server).wp pending done failed ↔
      match outcome with
      | .ok value => done value server
      | .error error => failed error server := by
  cases outcome <;> rfl

@[simp] theorem wp_execAsync (command : String) (server : Server) :
    (execAsync command server).wp pending done failed ↔ pending server (.exec command) ∧
      (∀ output, done output (server.log (.io (.exec command) (Except.ok output)))) ∧
      ∀ error, failed error (server.log (.io (.exec command) (Except.error error))) := by
  simp only [execAsync,M.bind_apply,perform_apply,bind,wp_call,wp_liftExcept]
  exact and_congr_right fun _ => ⟨fun all => ⟨fun output => all (.ok output),fun error => all (.error error)⟩,
    fun both outcome => by cases outcome with | ok output => exact both.1 output | error error => exact both.2 error⟩

@[simp] theorem wp_getProgramAccountsCall (programId : Bytes) (server : Server) :
    (getProgramAccountsCall programId server).wp pending done failed ↔ pending server (.getProgramAccounts programId) ∧
      (∀ accounts, done accounts (server.log (.io (.getProgramAccounts programId) (Except.ok accounts)))) ∧
      ∀ error, failed error (server.log (.io (.getProgramAccounts programId) (Except.error error))) := by
  simp only [getProgramAccountsCall,M.bind_apply,perform_apply,bind,wp_call,wp_liftExcept]
  exact and_congr_right fun _ => ⟨fun all => ⟨fun value => all (.ok value),fun error => all (.error error)⟩,
    fun both outcome => by cases outcome with | ok value => exact both.1 value | error error => exact both.2 error⟩

@[simp] theorem wp_getLatestBlockhash (server : Server) :
    (getLatestBlockhash server).wp pending done failed ↔ pending server .getLatestBlockhash ∧
      (∀ latest, done latest (server.log (.io .getLatestBlockhash (Except.ok latest)))) ∧
      ∀ error, failed error (server.log (.io .getLatestBlockhash (Except.error error))) := by
  simp only [getLatestBlockhash,M.bind_apply,perform_apply,bind,wp_call,wp_liftExcept]
  exact and_congr_right fun _ => ⟨fun all => ⟨fun value => all (.ok value),fun error => all (.error error)⟩,
    fun both outcome => by cases outcome with | ok value => exact both.1 value | error error => exact both.2 error⟩

@[simp] theorem wp_sendRawTransaction (transaction : Transaction) (server : Server) :
    (sendRawTransaction transaction server).wp pending done failed ↔ pending server (.sendRawTransaction transaction) ∧
      (∀ signature, done signature (server.log (.io (.sendRawTransaction transaction) (Except.ok signature)))) ∧
      ∀ error, failed error (server.log (.io (.sendRawTransaction transaction) (Except.error error))) := by
  simp only [sendRawTransaction,M.bind_apply,perform_apply,bind,wp_call,wp_liftExcept]
  exact and_congr_right fun _ => ⟨fun all => ⟨fun value => all (.ok value),fun error => all (.error error)⟩,
    fun both outcome => by cases outcome with | ok value => exact both.1 value | error error => exact both.2 error⟩

@[simp] theorem wp_confirmTransaction (signature blockhash : String) (height : Nat) (server : Server) :
    (confirmTransaction signature blockhash height server).wp pending done failed ↔
      pending server (.confirmTransaction signature blockhash height) ∧
      (∀ confirmation, done confirmation
        (server.log (.io (.confirmTransaction signature blockhash height) (Except.ok confirmation)))) ∧
      ∀ error, failed error (server.log (.io (.confirmTransaction signature blockhash height) (Except.error error))) := by
  simp only [confirmTransaction,M.bind_apply,perform_apply,bind,wp_call,wp_liftExcept]
  exact and_congr_right fun _ => ⟨fun all => ⟨fun value => all (.ok value),fun error => all (.error error)⟩,
    fun both outcome => by cases outcome with | ok value => exact both.1 value | error error => exact both.2 error⟩

@[simp] theorem wp_sleep (ms : Nat) (server : Server) :
    (sleep ms server).wp pending done failed ↔ pending server (.sleep ms) ∧ done () (server.log (.io (.sleep ms) ())) := by
  simp only [sleep,M.bind_apply,perform_apply,bind,wp_call,M.pure_apply,wp_ret]
  exact and_congr_right fun _ => ⟨fun all => all (),fun one _ => one⟩

@[simp] theorem wp_dateNow (server : Server) :
    (dateNow server).wp pending done failed ↔ pending server .now ∧ ∀ now : Nat, done now (server.log (.io .now now)) :=
  Iff.rfl

@[simp] theorem wp_readMessage (error : JsValue) (server : Server) :
    (readMessage error server).wp pending done failed ↔
      if error.isNullish then failed readMessageError server else done () server := by
  unfold readMessage; split <;> simp_all

@[simp] theorem wp_logAndRethrow (error : JsValue) (server : Server) :
    (logAndRethrow error server : Prog α).wp pending done failed ↔
      failed (if error.isNullish then readMessageError else error) server := by
  unfold logAndRethrow readMessage; split <;> simp_all [bind]

@[simp] theorem wp_logAndReturn (value : α) (error : JsValue) (server : Server) :
    (logAndReturn value error server).wp pending done failed ↔
      if error.isNullish then failed readMessageError server else done value server := by
  unfold logAndReturn readMessage; split <;> simp_all [bind]

end Prog

end KamuiVrf
