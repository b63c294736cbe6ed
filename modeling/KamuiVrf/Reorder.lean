import KamuiVrf.Locality

namespace KamuiVrf

def Server.applyAll (server : Server) : List (Bytes × Delta) → Server
  | [] => server
  | (key,delta) :: rest => (server.apply key delta).applyAll rest

def Event.sentTransaction : Event → Option Transaction
  | .io (.sendRawTransaction transaction) _ => some transaction
  | _ => none

-- The transactions a history shows handed to `sendRawTransaction`, in order.
def submissions (history : List Event) : List Transaction := history.filterMap Event.sentTransaction

@[simp] theorem submissions_append (history events : List Event) :
    submissions (history ++ events) = submissions history ++ submissions events := List.filterMap_append _ _ _

-- Collaborators that answer the enumeration with `accounts` and every other call as `answer`.
def enumerating (accounts : List Account) (answer : (request : Request) → request.Outcome) :
    (request : Request) → request.Outcome
  | .getProgramAccounts _ => Except.ok accounts
  | request => answer request

theorem enumerating_answersAs (accounts : List Account) (answer : (request : Request) → request.Outcome) :
    AnswersAs answer (enumerating accounts answer) := by
  intro request quiet
  cases request <;> first | rfl | simp [Request.isEnumeration] at quiet

section Runs

variable {other : (request : Request) → request.Outcome}

-- With distinct keys, each account of the scan is judged from the entry it started with.
theorem scanAccounts_run {keeps : Account → Option ProcessedInfo → Bool} {delta : Account → Option ProcessedInfo → Delta}
    (runs : ∀ account server, (tryCatch (scanAccount account) (logAndReturn false) server).interp (fun _ => other) =
      (.ok (keeps account (server.processedRequests account.pubkey)),
        server.apply account.pubkey (delta account (server.processedRequests account.pubkey)))) :
    ∀ (accounts : List Account) (server : Server), (accounts.map Account.pubkey).Nodup →
      (scanAccounts accounts server).interp (fun _ => other) =
        (.ok (accounts.filter fun account => keeps account (server.processedRequests account.pubkey)),
          server.applyAll (accounts.map fun account => (account.pubkey,delta account (server.processedRequests account.pubkey)))) := by
  intro accounts
  induction accounts with
  | nil => exact fun _ _ => rfl
  | cons account rest ih =>
    intro server distinct
    rw [List.map_cons,List.nodup_cons] at distinct
    have untouched : ∀ later ∈ rest, (server.apply account.pubkey (delta account (server.processedRequests account.pubkey))).processedRequests later.pubkey = server.processedRequests later.pubkey :=
      fun later inside => by
        rw [Server.apply_processedRequests,if_neg fun (same : later.pubkey = account.pubkey) =>
          distinct.1 (same ▸ List.mem_map_of_mem _ inside)]
    simp only [scanAccounts,M.bind_apply,Prog.interp_bind,runs]
    rw [ih _ distinct.2,List.filter_congr fun later inside => congrArg (keeps later) (untouched later inside),
      List.map_congr_left fun later inside => by rw [untouched later inside]]
    cases kept : keeps account (server.processedRequests account.pubkey) <;>
      simp [kept,List.filter_cons,Server.applyAll,Prog.interp]

theorem processAccounts_run (ctx : Context) {delta : Account → Option ProcessedInfo → Delta}
    (runs : ∀ account server, (processAccount ctx account server).interp (fun _ => other) =
      (.ok (),server.apply account.pubkey (delta account (server.processedRequests account.pubkey)))) :
    ∀ (accounts : List Account) (server : Server), (accounts.map Account.pubkey).Nodup →
      (processAccounts ctx accounts server).interp (fun _ => other) =
        (.ok (),server.applyAll (accounts.map fun account => (account.pubkey,delta account (server.processedRequests account.pubkey)))) := by
  intro accounts
  induction accounts with
  | nil => exact fun _ _ => rfl
  | cons account rest ih =>
    intro server distinct
    rw [List.map_cons,List.nodup_cons] at distinct
    simp only [processAccounts,M.bind_apply,Prog.interp_bind,runs]
    rw [ih _ distinct.2,List.map_congr_left fun later inside => by
      rw [Server.apply_processedRequests,if_neg fun (same : later.pubkey = account.pubkey) =>
        distinct.1 (same ▸ List.mem_map_of_mem _ inside)]]
    rfl

end Runs

-- Two runs agree on the entries and the counters, and have added, to the histories they
-- started from, the same transactions up to order.
structure Similar (base₁ base₂ : List Event) (first second : Server) : Prop where
  entries : first.processedRequests = second.processedRequests
  stats : first.stats = second.stats
  added : ∃ added₁ added₂, first.history = base₁ ++ added₁ ∧ second.history = base₂ ++ added₂ ∧
    (submissions added₁).Perm (submissions added₂)

namespace Similar

variable {base₁ base₂ : List Event} {first second : Server}

theorem start (entries : first.processedRequests = second.processedRequests) (stats : first.stats = second.stats) :
    Similar first.history second.history first second :=
  ⟨entries,stats,[],[],by simp,by simp,.nil⟩

theorem right (similar : Similar base₁ base₂ first second) : Similar base₂ base₂ second second := by
  obtain ⟨_,_,_,added,-,history,-⟩ := similar
  exact ⟨rfl,rfl,added,added,history,history,.refl _⟩

theorem trans {base₃ : List Event} {third : Server} (before : Similar base₁ base₂ first second)
    (after : Similar base₂ base₃ second third) : Similar base₁ base₃ first third := by
  obtain ⟨entries,stats,added₁,added₂,history₁,history₂,sent⟩ := before
  obtain ⟨entries₂,stats₂,again₂,added₃,history₂',history₃,sent₂⟩ := after
  have same : added₂ = again₂ := List.append_cancel_left (history₂.symm.trans history₂')
  exact ⟨entries.trans entries₂,stats.trans stats₂,added₁,added₃,history₁,history₃,sent.trans (same ▸ sent₂)⟩

theorem log (similar : Similar base₁ base₂ first second) {event₁ event₂ : Event}
    (unsent₁ : event₁.sentTransaction = none) (unsent₂ : event₂.sentTransaction = none) :
    Similar base₁ base₂ (first.log event₁) (second.log event₂) := by
  obtain ⟨entries,stats,added₁,added₂,history₁,history₂,sent⟩ := similar
  refine ⟨entries,stats,added₁ ++ [event₁],added₂ ++ [event₂],by simp [history₁],by simp [history₂],?_⟩
  simpa [submissions,unsent₁,unsent₂] using sent

theorem apply (similar : Similar base₁ base₂ first second) (key : Bytes) (delta : Delta) :
    Similar base₁ base₂ (first.apply key delta) (second.apply key delta) := by
  obtain ⟨entries,stats,added₁,added₂,history₁,history₂,sent⟩ := similar
  refine ⟨funext fun other => by simp [entries],by simp [stats],added₁ ++ delta.events,added₂ ++ delta.events,
    by simp [history₁],by simp [history₂],?_⟩
  simpa using sent.append_right _

theorem applyAll (similar : Similar base₁ base₂ first second) (deltas : List (Bytes × Delta)) :
    Similar base₁ base₂ (first.applyAll deltas) (second.applyAll deltas) := by
  induction deltas generalizing first second with
  | nil => exact similar
  | cons delta rest ih => exact ih (similar.apply delta.1 delta.2)

-- Changes at two different keys commute, up to the order of the events they append.
theorem swap (similar : Similar base₁ base₂ first second) {key₁ key₂ : Bytes} (distinct : key₁ ≠ key₂)
    (delta₁ delta₂ : Delta) :
    Similar base₁ base₂ ((first.apply key₁ delta₁).apply key₂ delta₂) ((second.apply key₂ delta₂).apply key₁ delta₁) := by
  obtain ⟨entries,stats,added₁,added₂,history₁,history₂,sent⟩ := similar
  refine ⟨funext fun other => ?_,?_,added₁ ++ delta₁.events ++ delta₂.events,added₂ ++ delta₂.events ++ delta₁.events,
    by simp [history₁],by simp [history₂],?_⟩
  · simp only [Server.apply_processedRequests,entries]
    split_ifs <;> simp_all
  · simp only [Server.apply_stats,stats,Nat.add_right_comm]
  · simpa only [submissions_append,List.append_assoc] using sent.append List.perm_append_comm

-- Applying the same changes at distinct keys in another order gives a similar state.
theorem perm {deltas reordered : List (Bytes × Delta)} (shuffled : deltas.Perm reordered)
    (distinct : (deltas.map Prod.fst).Nodup) {first second : Server} (similar : Similar base₁ base₂ first second) :
    Similar base₁ base₂ (first.applyAll deltas) (second.applyAll reordered) := by
  induction shuffled generalizing base₁ first second with
  | nil => exact similar
  | cons delta _ ih => exact ih (List.nodup_cons.mp distinct).2 (similar.apply delta.1 delta.2)
  | swap delta₁ delta₂ rest =>
    have apart : delta₂.1 ≠ delta₁.1 := fun same => by simp_all
    exact (similar.swap apart delta₂.2 delta₁.2).applyAll rest
  | trans shuffled _ ih₁ ih₂ =>
    exact (ih₁ distinct similar).trans (ih₂ ((shuffled.map Prod.fst).nodup_iff.mp distinct) (similar.right))

end Similar

-- A cycle whose enumeration answers `accounts` with distinct keys: the scan judges and
-- updates each account from its own entry, then the loop processes each kept account
-- from its entry after the scan.
theorem monitorAndProcess_run (ctx : Context) {answer : (request : Request) → request.Outcome}
    {keeps : Account → Option ProcessedInfo → Bool} {scanned processed : Account → Option ProcessedInfo → Delta}
    {accounts : List Account} (distinct : (accounts.map Account.pubkey).Nodup)
    (scans : ∀ account server, (tryCatch (scanAccount account) (logAndReturn false) server).interp
      (fun _ => enumerating accounts answer) = (.ok (keeps account (server.processedRequests account.pubkey)),
        server.apply account.pubkey (scanned account (server.processedRequests account.pubkey))))
    (processes : ∀ account server, (processAccount ctx account server).interp (fun _ => enumerating accounts answer) =
      (.ok (),server.apply account.pubkey (processed account (server.processedRequests account.pubkey))))
    (server : Server) (afterScan : Server)
    (scanning : afterScan = (server.log (.io (.getProgramAccounts ctx.vrfProgramId) (Except.ok accounts))).applyAll
      (accounts.map fun account => (account.pubkey,scanned account (server.processedRequests account.pubkey)))) :
    (monitorAndProcess ctx server).interp (fun _ => enumerating accounts answer) =
      (.ok (),afterScan.applyAll ((accounts.filter fun account => keeps account (server.processedRequests account.pubkey)).map
        fun account => (account.pubkey,processed account (afterScan.processedRequests account.pubkey)))) := by
  have enumerated : (getProgramAccountsCall ctx.vrfProgramId server).interp (fun _ => enumerating accounts answer) =
      (.ok accounts,server.log (.io (.getProgramAccounts ctx.vrfProgramId) (Except.ok accounts))) := rfl
  have scan := scanAccounts_run scans accounts (server.log (.io (.getProgramAccounts ctx.vrfProgramId) (Except.ok accounts)))
    distinct
  simp only [Server.log_processedRequests,← scanning] at scan
  have loop := processAccounts_run ctx processes (accounts.filter fun account =>
    keeps account (server.processedRequests account.pubkey)) afterScan
    (distinct.sublist ((List.filter_sublist accounts).map Account.pubkey))
  simp only [monitorAndProcess,getPendingRequestAccounts,tryCatch_apply,M.bind_apply,Prog.interp_handle,
    Prog.interp_bind,enumerated,scan]
  by_cases empty : (accounts.filter fun account => keeps account (server.processedRequests account.pubkey)).length = 0
  · rw [if_pos empty,List.eq_nil_of_length_eq_zero empty]
    rfl
  · rw [if_neg empty,loop]

-- Whatever the collaborators answer, as long as each answer depends on the request alone
-- (so the clock reads one value throughout): a cycle over an enumeration with distinct
-- addresses and a cycle over any reordering of it, from servers with the same entries and
-- counters, leave the same entries and counters and add the same transactions.
theorem cycle_orderIndependent (ctx : Context) (answer : (request : Request) → request.Outcome)
    {first second : Server} {accounts permuted : List Account}
    (sameEntries : first.processedRequests = second.processedRequests) (sameStats : first.stats = second.stats)
    (distinct : (accounts.map Account.pubkey).Nodup) (reordered : accounts.Perm permuted) :
    let run₁ := (monitorAndProcess ctx first).interp fun _ => enumerating accounts answer
    let run₂ := (monitorAndProcess ctx second).interp fun _ => enumerating permuted answer
    run₁.1.toOption = some () ∧ run₂.1.toOption = some () ∧
      run₁.2.processedRequests = run₂.2.processedRequests ∧ run₁.2.stats = run₂.2.stats ∧
      ∃ added₁ added₂, run₁.2.history = first.history ++ added₁ ∧ run₂.2.history = second.history ++ added₂ ∧
        (submissions added₁).Perm (submissions added₂) := by
  intro run₁ run₂
  -- each account's scan step and loop iteration, as functions of its entry
  have scanTotal : ∀ (account : Account) server,
      (tryCatch (scanAccount account) (logAndReturn false) server).wp (fun _ _ => True) (fun _ _ => True)
        (fun _ _ => False) := fun account server => by
    rw [tryCatch_apply,Prog.wp_handle]
    exact Prog.wp_mono (scanAccount_turn account server) (fun _ _ _ => trivial) (fun _ _ _ => trivial)
      fun _ _ => False.elim
  have processTotal : ∀ (account : Account) server,
      (processAccount ctx account server).wp (fun _ _ => True) (fun _ _ => True) (fun _ _ => False) :=
    fun account server => Prog.wp_mono (processAccount_logged ctx account server) (fun _ _ _ => trivial)
      (fun _ _ _ => trivial) fun _ _ => id
  choose keeps scanned scans using fun account : Account =>
    (Local.tryCatch (@Local.scanAccount answer account) fun error => Local.logAndReturn false error).total
      (scanTotal account)
  choose done processed processes using fun account : Account =>
    (@Local.processAccount answer ctx account).total (processTotal account)
  have unique : (permuted.map Account.pubkey).Nodup := (reordered.map _).nodup_iff.mp distinct
  let scanning : Account → Bytes × Delta := fun account => (account.pubkey,scanned account (first.processedRequests account.pubkey))
  -- the scans make the same changes in another order
  have scannedSimilar : Similar first.history second.history
      ((first.log (.io (.getProgramAccounts ctx.vrfProgramId) (Except.ok accounts))).applyAll (accounts.map scanning))
      ((second.log (.io (.getProgramAccounts ctx.vrfProgramId) (Except.ok permuted))).applyAll (permuted.map scanning)) :=
    ((Similar.start sameEntries sameStats).log (by rfl) (by rfl)).perm (reordered.map scanning)
      (by simpa [scanning,Function.comp_def] using distinct)
  let processing : Account → Bytes × Delta := fun account => (account.pubkey,processed account
    (((first.log (.io (.getProgramAccounts ctx.vrfProgramId) (Except.ok accounts))).applyAll
      (accounts.map scanning)).processedRequests account.pubkey))
  let kept : Account → Bool := fun account => keeps account (first.processedRequests account.pubkey)
  -- and so do the loops over the accounts they kept
  have processedSimilar := scannedSimilar.perm ((reordered.filter kept).map processing)
    (by simpa [processing,Function.comp_def] using distinct.sublist ((@List.filter_sublist _ kept accounts).map Account.pubkey))
  have first₁ : run₁ = (.ok (),_) := monitorAndProcess_run ctx distinct
    (fun account server => scans account _ (enumerating_answersAs accounts answer) server)
    (fun account server => processes account _ (enumerating_answersAs accounts answer) server) first _ rfl
  have second₁ : run₂ = (.ok (),_) := monitorAndProcess_run ctx unique
    (fun account server => scans account _ (enumerating_answersAs permuted answer) server)
    (fun account server => processes account _ (enumerating_answersAs permuted answer) server) second _ rfl
  rw [← sameEntries,← scannedSimilar.entries] at second₁
  rw [first₁,second₁]
  exact ⟨rfl,rfl,processedSimilar.entries,processedSimilar.stats,processedSimilar.added⟩

-- A CLI that proves and verifies every input, a ledger that confirms every transaction,
-- and a clock that reads 1000 throughout.
def steadyCollaborators : (request : Request) → request.Outcome
  | .getProgramAccounts _ => Except.ok []
  | .exec _ => Except.ok ⟨"Proof: ab\nOutput: cd",""⟩
  | .getLatestBlockhash => Except.ok ⟨"hash",100⟩
  | .sendRawTransaction _ => Except.ok "sig"
  | .confirmTransaction .. => Except.ok ⟨none⟩
  | .sleep _ => ()
  | .now => (1000 : Nat)

theorem cycle_orderIndependent_swapped :
    let ctx : Context := ⟨[],[2],⟨"mangekyou",⟨"secret","cd"⟩⟩,3000,fun _ _ => [],fun _ => none⟩
    let accounts : List Account :=
      [⟨[1],requestDiscriminator ++ List.replicate 158 0⟩,⟨[2],requestDiscriminator ++ List.replicate 158 0⟩]
    let run₁ := (monitorAndProcess ctx (initialServer 0)).interp fun _ => enumerating accounts steadyCollaborators
    let run₂ := (monitorAndProcess ctx (initialServer 0)).interp fun _ =>
      enumerating accounts.reverse steadyCollaborators
    (accounts.map Account.pubkey).Nodup ∧ accounts.Perm accounts.reverse ∧
      run₁.1.toOption = some () ∧ run₂.1.toOption = some () ∧
      run₁.2.processedRequests = run₂.2.processedRequests ∧ run₁.2.stats = run₂.2.stats ∧
      ∃ added₁ added₂, run₁.2.history = (initialServer 0).history ++ added₁ ∧
        run₂.2.history = (initialServer 0).history ++ added₂ ∧ (submissions added₁).Perm (submissions added₂) :=
  ⟨by decide,(List.reverse_perm _).symm,
    cycle_orderIndependent _ steadyCollaborators rfl rfl (by decide) (List.reverse_perm _).symm⟩

end KamuiVrf
