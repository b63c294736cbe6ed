import KamuiVrf.State
import KamuiVrf.Layout

namespace KamuiVrf

-- The `try` block of `isRequestPending`; its catch reads `error.message` and answers false.
def checkRequestStatus (data : Bytes) : M Bool :=
  match requestStatusPending data with
  | .ok pending => pure pending
  | .error error => logAndReturn false error

def isRequestPending (account : Account) : M Bool := do
  match (← getServer).processedRequests account.pubkey with
  | some processedInfo =>
    let now ← dateNow
    -- processed within the last 10 minutes: skip
    if (now : Int) - processedInfo.timestamp < 10 * 60 * 1000 then pure false
    else do
      modifyServer (·.deleteProcessed account.pubkey)
      checkRequestStatus account.data
  | none => checkRequestStatus account.data

-- The `try` block of `getPendingRequestAccounts`'s loop, for one account.
def scanAccount (account : Account) : M Bool :=
  if account.data.length < 32 then pure false
  else if discriminatorHex account.data = requestDiscriminatorHex then isRequestPending account
  else pure false

def scanAccounts : List Account → M (List Account)
  | [] => pure []
  | account :: rest => do
    let pending ← tryCatch (scanAccount account) (logAndReturn false)
    let pendingRequests ← scanAccounts rest
    pure (if pending then account :: pendingRequests else pendingRequests)

def getPendingRequestAccounts (ctx : Context) : M (List Account) := do
  let accounts ← getProgramAccountsCall ctx.vrfProgramId
  scanAccounts accounts

namespace Prog

@[simp] theorem wp_checkRequestStatus (data : Bytes) (server : Server) :
    (checkRequestStatus data server).wp pending done failed ↔ done (decide (StatusPending data)) server := by
  simp [checkRequestStatus,requestStatusPending_eq]

theorem wp_isRequestPending (account : Account) (server : Server) :
    (isRequestPending account server).wp pending done failed ↔
      match server.processedRequests account.pubkey with
      | none => done (decide (StatusPending account.data)) server
      | some info => pending server .now ∧ ∀ now : Nat,
          if (now : Int) - info.timestamp < 10 * 60 * 1000 then done false (server.log (.io .now now))
          else done (decide (StatusPending account.data)) ((server.log (.io .now now)).deleteProcessed account.pubkey) := by
  unfold isRequestPending
  cases entry : server.processedRequests account.pubkey with
  | none => simp [entry,bind]
  | some info =>
    simp only [M.bind_apply,getServer_apply,bind,entry,wp_bind,wp_dateNow]
    refine and_congr_right fun _ => forall_congr' fun (now : Nat) => ?_
    by_cases recent : (now : Int) - info.timestamp < 600000 <;> simp [recent,bind]

theorem wp_scanAccount (account : Account) (server : Server) :
    (scanAccount account server).wp pending done failed ↔
      if account.data.length < 32 ∨ discriminatorHex account.data ≠ requestDiscriminatorHex then done false server
      else (isRequestPending account server).wp pending done failed := by
  unfold scanAccount
  by_cases short : account.data.length < 32
  · simp [short]
  · by_cases tagged : discriminatorHex account.data = requestDiscriminatorHex <;> simp [short,tagged]

end Prog

-- One account's turn of the scan, from the server it meets to its answer and the server it
-- leaves: an entry younger than 10 minutes by the turn's clock reading skips the account, an
-- older one is evicted first, and a tagged account is otherwise judged by its status parse.
inductive ScanTurn (account : Account) : Server → Bool → Server → Prop
  | foreign {server : Server}
      (rejected : account.data.length < 32 ∨ discriminatorHex account.data ≠ requestDiscriminatorHex) :
      ScanTurn account server false server
  | unseen {server : Server} (long : 32 ≤ account.data.length)
      (tagged : discriminatorHex account.data = requestDiscriminatorHex)
      (unseen : server.processedRequests account.pubkey = none) :
      ScanTurn account server (decide (StatusPending account.data)) server
  | recent {server : Server} {info : ProcessedInfo} {now : Nat} (long : 32 ≤ account.data.length)
      (tagged : discriminatorHex account.data = requestDiscriminatorHex)
      (entry : server.processedRequests account.pubkey = some info)
      (within : (now : Int) - info.timestamp < 10 * 60 * 1000) :
      ScanTurn account server false (server.log (.io .now now))
  | stale {server : Server} {info : ProcessedInfo} {now : Nat} (long : 32 ≤ account.data.length)
      (tagged : discriminatorHex account.data = requestDiscriminatorHex)
      (entry : server.processedRequests account.pubkey = some info)
      (old : ¬ (now : Int) - info.timestamp < 10 * 60 * 1000) :
      ScanTurn account server (decide (StatusPending account.data))
        ((server.log (.io .now now)).deleteProcessed account.pubkey)

-- The scan's turns in enumeration order, each from the server the one before left; it
-- returns, in order, the accounts whose turn answered true.
inductive Scanned : Server → List Account → List Account → Server → Prop
  | nil {server : Server} : Scanned server [] [] server
  | cons {server middle after : Server} {account : Account} {rest result : List Account} {kept : Bool}
      (turn : ScanTurn account server kept middle) (scanned : Scanned middle rest result after) :
      Scanned server (account :: rest) (if kept then account :: result else result) after

theorem ScanTurn.pending {account : Account} {server after : Server} {kept : Bool}
    (turn : ScanTurn account server kept after) : kept → StatusPending account.data := by
  cases turn <;> simp

-- A turn only evicts.
theorem ScanTurn.unseen_after {account : Account} {server after : Server} {kept : Bool}
    (turn : ScanTurn account server kept after) {key : Bytes} (unseen : server.processedRequests key = none) :
    after.processedRequests key = none := by
  cases turn <;> simp [unseen]

theorem Scanned.returned {server after : Server} {accounts result : List Account}
    (scanned : Scanned server accounts result after) :
    result.Sublist accounts ∧ ∀ account ∈ result, StatusPending account.data := by
  induction scanned with
  | nil => simp
  | @cons _ _ _ account _ _ kept turn _ ih =>
    cases kept with
    | false => exact ⟨ih.1.cons account,ih.2⟩
    | true => exact ⟨ih.1.cons₂ account,List.forall_mem_cons.mpr ⟨turn.pending rfl,ih.2⟩⟩

-- An account with no entry when the scan starts meets none at its turn, so the scan
-- returns it exactly when its status parse accepts it.
theorem Scanned.unseen_returned {server after : Server} {accounts result : List Account}
    (scanned : Scanned server accounts result after) {account : Account} (listed : account ∈ accounts)
    (unseen : server.processedRequests account.pubkey = none) :
    account ∈ result ↔ StatusPending account.data := by
  refine ⟨fun returned => scanned.returned.2 account returned,fun pending => ?_⟩
  induction scanned with
  | nil => cases listed
  | cons turn _ ih =>
    rcases List.mem_cons.mp listed with rfl | later
    · cases turn with
      | foreign rejected => exact (rejected.elim (by have := pending.long; omega) (· pending.tagged)).elim
      | unseen => simp [pending]
      | recent _ _ entry | stale _ _ entry => simp [unseen] at entry
    · split
      · exact List.mem_cons_of_mem _ (ih later (turn.unseen_after unseen))
      · exact ih later (turn.unseen_after unseen)

theorem scanAccount_turn (account : Account) (server : Server) :
    (scanAccount account server).wp (fun _ _ => True) (fun kept after => ScanTurn account server kept after)
      (fun _ _ => False) := by
  rw [Prog.wp_scanAccount]
  split_ifs with rejected
  · exact .foreign rejected
  · push_neg at rejected
    obtain ⟨long,tagged⟩ := rejected
    rw [Prog.wp_isRequestPending]
    cases entry : server.processedRequests account.pubkey with
    | none => exact .unseen long tagged entry
    | some info =>
      refine ⟨trivial,fun now => ?_⟩
      split_ifs with within
      · exact .recent long tagged entry within
      · exact .stale long tagged entry within

-- The per-account check never throws, so each account's catch handler is dead code
-- and every enumerated account has its turn.
theorem scanAccounts_scanned (accounts : List Account) (server : Server) :
    (scanAccounts accounts server).wp (fun _ _ => True) (fun result after => Scanned server accounts result after)
      (fun _ _ => False) := by
  induction accounts generalizing server with
  | nil => exact .nil
  | cons account rest ih =>
    simp only [scanAccounts,M.bind_apply,tryCatch_apply,Prog.wp_bind,Prog.wp_handle]
    refine Prog.wp_mono (scanAccount_turn account server) (fun _ _ => id) ?_ (fun _ _ => False.elim)
    exact fun kept middle turn => Prog.wp_mono (ih middle) (fun _ _ => id) (fun _ _ => .cons turn) (fun _ _ => id)

-- The scan rejects only when the enumeration does; otherwise every enumerated account
-- has its turn, whatever was answered for the ones before it.
theorem getPendingRequestAccounts_examines (ctx : Context) (server : Server) :
    (getPendingRequestAccounts ctx server).wp (fun _ _ => True)
      (fun pending after => ∃ accounts,
        Scanned (server.log (.io (.getProgramAccounts ctx.vrfProgramId) (Except.ok accounts))) accounts pending after)
      (fun error after =>
        after.history = server.history ++ [.io (.getProgramAccounts ctx.vrfProgramId) (Except.error error)]) := by
  simp only [getPendingRequestAccounts,M.bind_apply,Prog.wp_bind,Prog.wp_getProgramAccountsCall]
  refine ⟨trivial,fun accounts => ?_,fun _ => rfl⟩
  exact Prog.wp_mono (scanAccounts_scanned accounts _) (fun _ _ _ => trivial) (fun _ _ scanned => ⟨accounts,scanned⟩)
    (fun _ _ => False.elim)

end KamuiVrf
