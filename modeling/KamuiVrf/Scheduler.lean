import KamuiVrf.Pipeline
import Mathlib.Data.Rat.Defs

namespace KamuiVrf

-- One iteration of `monitorAndProcess`'s loop, with its own try/catch. Its
-- `processedCount++` only feeds the cycle's log line.
def processAccount (ctx : Context) (account : Account) : M Unit :=
  tryCatch
    (do
      if ← processRequestAccount ctx account then
        sleep 1000)
    fun error => do
      readMessage error
      modifyServer (·.countError)

def processAccounts (ctx : Context) : List Account → M Unit
  | [] => pure ()
  | account :: rest => do
    processAccount ctx account
    processAccounts ctx rest

def monitorAndProcess (ctx : Context) : M Unit :=
  tryCatch
    (do
      let accounts ← getPendingRequestAccounts ctx
      if accounts.length = 0 then pure ()
      else processAccounts ctx accounts)
    logAndRethrow

-- One turn of `start`'s `while (this.isRunning)` loop.
def monitoringTurn (ctx : Context) : M Unit :=
  tryCatch
    (do
      monitorAndProcess ctx
      sleep ctx.pollingInterval)
    fun error => do
      readMessage error
      modifyServer (·.countError)
      sleep 5000

-- `start()` up to its loop; `setupGracefulShutdown` is the `signal` step below.
def start : M Unit := do
  modifyServer fun server => { server with isRunning := true }
  let now ← dateNow
  modifyServer fun server => { server with stats := { server.stats with startTime := now } }

namespace Prog

theorem wp_processAccount (ctx : Context) (account : Account) (server : Server) :
    (processAccount ctx account server).wp pending done failed ↔
      (processRequestAccount ctx account server).wp pending
        (fun processed after => if processed then
            pending after (.sleep 1000) ∧ done () (after.log (.io (.sleep 1000) ()))
          else done () after)
        fun error after => if error.isNullish then failed readMessageError after else done () after.countError := by
  simp only [processAccount,tryCatch_apply,wp_handle,M.bind_apply,wp_bind]
  refine wp_congr (fun processed after => ?_) fun error after => ?_
  · cases processed <;> simp
  · unfold readMessage
    split <;> simp_all [bind]

theorem wp_processAccounts_cons (ctx : Context) (account : Account) (rest : List Account) (server : Server) :
    (processAccounts ctx (account :: rest) server).wp pending done failed ↔
      (processAccount ctx account server).wp pending
        (fun _ after => (processAccounts ctx rest after).wp pending done failed) failed := by
  simp [processAccounts]

theorem wp_monitorAndProcess (ctx : Context) (server : Server) :
    (monitorAndProcess ctx server).wp pending done failed ↔
      (getPendingRequestAccounts ctx server).wp pending
        (fun accounts after => if accounts.length = 0 then done () after
          else (processAccounts ctx accounts after).wp pending done
            fun error => failed (if error.isNullish then readMessageError else error))
        fun error => failed (if error.isNullish then readMessageError else error) := by
  simp only [monitorAndProcess,tryCatch_apply,wp_handle,M.bind_apply,wp_bind,wp_logAndRethrow]
  refine wp_congr (fun accounts after => ?_) fun _ _ => .rfl
  split <;> simp

theorem wp_monitoringTurn (ctx : Context) (server : Server) :
    (monitoringTurn ctx server).wp pending done failed ↔
      (monitorAndProcess ctx server).wp pending
        (fun _ after => pending after (.sleep ctx.pollingInterval) ∧
          done () (after.log (.io (.sleep ctx.pollingInterval) ())))
        fun error after => if error.isNullish then failed readMessageError after
          else pending after.countError (.sleep 5000) ∧ done () (after.countError.log (.io (.sleep 5000) ())) := by
  simp only [monitoringTurn,tryCatch_apply,wp_handle,M.bind_apply,wp_bind,wp_sleep]
  refine wp_congr (fun _ _ => .rfl) fun error after => ?_
  unfold readMessage
  split <;> simp_all [bind]

end Prog

-- `printStats`' success rate, in exact arithmetic.
def successRate (stats : Stats) : ℚ :=
  if stats.requestsProcessed > 0 then (stats.requestsFulfilled : ℚ) / stats.requestsProcessed * 100 else 0

-- The process: running the loop, or exited with a code and its last state.
inductive Control where
  | running (program : Prog Unit)
  | exited (code : Nat) (server : Server)

-- The SIGINT/SIGTERM handler: `isRunning = false`, `printStats()`, `process.exit(0)`.
def shutdown (server : Server) : Control := .exited 0 { server with isRunning := false }

-- The event loop runs the signal handler only while the server awaits a timer or I/O.
inductive Step (ctx : Context) : Control → Control → Prop
  | answer {server : Server} {request : Request} {resume : request.Outcome → Prog Unit} (outcome : request.Outcome) :
      Step ctx (.running (.call server request resume)) (.running (resume outcome))
  | signal {server : Server} {request : Request} {resume : request.Outcome → Prog Unit}
      (yields : request.yields = true) : Step ctx (.running (.call server request resume)) (shutdown server)
  | turn {server : Server} (running : server.isRunning = true) :
      Step ctx (.running (.ret () server)) (.running (monitoringTurn ctx server))
  | finish {server : Server} (stopped : server.isRunning = false) :
      Step ctx (.running (.ret () server)) (.exited 0 server)
  -- `main`'s catch: `process.exit(1)`
  | crash {error : JsValue} {server : Server} :
      Step ctx (.running (.raise error server)) (.exited 1 server)

def Control.initial (startTime : Nat) : Control := .running (start (initialServer startTime))

def Control.server : Control → Server
  | .running program => program.current
  | .exited _ server => server

inductive Reachable (ctx : Context) (startTime : Nat) : Control → Prop
  | initial : Reachable ctx startTime (Control.initial startTime)
  | step {before after : Control} : Reachable ctx startTime before → Step ctx before after →
      Reachable ctx startTime after

-- The next state when each call is answered by `answer` and no signal arrives.
def Control.advance (ctx : Context) (answer : Server → (request : Request) → request.Outcome) : Control → Control
  | .running (.call server request resume) => .running (resume (answer server request))
  | .running (.ret () server) => if server.isRunning then .running (monitoringTurn ctx server) else .exited 0 server
  | .running (.raise _ server) => .exited 1 server
  | .exited code server => .exited code server

theorem Reachable.advance {ctx : Context} {startTime : Nat} {control : Control}
    (answer : Server → (request : Request) → request.Outcome) (reachable : Reachable ctx startTime control) :
    Reachable ctx startTime (control.advance ctx answer) := by
  match control with
  | .running (.call server request resume) => exact reachable.step (.answer _)
  | .running (.ret () server) =>
    by_cases running : server.isRunning
    · rw [Control.advance,if_pos running]
      exact reachable.step (.turn running)
    · rw [Control.advance,if_neg running]
      exact reachable.step (.finish (Bool.of_not_eq_true running))
  | .running (.raise error server) => exact reachable.step .crash
  | .exited code server => exact reachable

theorem Reachable.iterate (ctx : Context) (startTime : Nat) (answer : Server → (request : Request) → request.Outcome)
    (steps : Nat) : Reachable ctx startTime ((Control.advance ctx answer)^[steps] (Control.initial startTime)) := by
  induction steps with
  | zero => exact .initial
  | succ steps ih => exact Function.iterate_succ_apply' _ _ _ ▸ ih.advance answer

end KamuiVrf
