import KamuiVrf.Dedup

namespace KamuiVrf

-- The call the process is suspended on, if it is suspended.
def Control.awaiting : Control → Option Request
  | .running (.call _ request _) => some request
  | _ => none

-- The `SIGINT`/`SIGTERM` handler runs at any await on a timer or on I/O, and exits the
-- process there, whatever the code that awaits was in the middle of.
theorem Reachable.interrupt {ctx : Context} {startTime : Nat} {control : Control} {request : Request}
    (reachable : Reachable ctx startTime control) (awaiting : control.awaiting = some request)
    (yields : request.yields = true) : Reachable ctx startTime (shutdown control.server) := by
  match control, awaiting with
  | .running (.call server request resume), rfl => exact reachable.step (.signal yields)

-- The exit leaves the history as it was: a submission the run had marked stays unanswered.
@[simp] theorem shutdown_history (server : Server) : (shutdown server).server.history = server.history := rfl

@[simp] theorem shutdown_stats (server : Server) : (shutdown server).server.stats = server.stats := rfl

-- The first cycle of the duplicated enumeration, stopped while it awaits the confirmation
-- of the transaction it has sent: the process exits with code 0, the submission marked
-- and never answered, counted as processed and not as fulfilled.
set_option maxRecDepth 100000 in
theorem shutdown_midSubmission :
    let ctx : Context := ⟨[],[2],⟨"mangekyou",⟨"secret","cd"⟩⟩,3000,fun _ _ => [],fun _ => none⟩
    let sent := (Control.advance ctx (duplicateEnumeration ⟨[1],requestDiscriminator ++ List.replicate 158 0⟩))^[9]
      (Control.initial 0)
    sent.awaiting = some (.confirmTransaction "sig" "hash" 100) ∧ Reachable ctx 0 (shutdown sent.server) ∧
      (∃ server, shutdown sent.server = .exited 0 server) ∧ awaitsSettle (shutdown sent.server).server.history = true ∧
      (shutdown sent.server).server.stats.requestsProcessed = 1 ∧
      (shutdown sent.server).server.stats.requestsFulfilled = 0 := by
  intro ctx sent
  have awaiting : sent.awaiting = some (.confirmTransaction "sig" "hash" 100) := by decide
  have unanswered : awaitsSettle sent.server.history = true ∧ sent.server.stats.requestsProcessed = 1 ∧
      sent.server.stats.requestsFulfilled = 0 := by decide
  exact ⟨awaiting,(Reachable.iterate ..).interrupt awaiting rfl,⟨_,rfl⟩,by simpa using unanswered⟩

end KamuiVrf
