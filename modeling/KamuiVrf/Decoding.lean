import KamuiVrf.Trace

namespace KamuiVrf

-- For a record that holds every field, the server's reads are the reference decoder's, and
-- processing it starts by proving the reference seed.
theorem fullRecord_parsed {data : Bytes} (pending : StatusPending data)
    (fits : 166 + callbackLength data ≤ data.length) :
    ∃ reference, decodeRandomnessRequest data = some reference ∧ reference.tag = requestDiscriminator ∧
      reference.status = 0 ∧ reference.requestId.length = 32 ∧
      parseRequestAccount data = .ok ⟨reference.subscription,reference.seed,reference.requester,reference.poolId,
        reference.requestIndex,reference.requestId⟩ ∧
      ∀ ctx server pubkey, server.processedRequests pubkey = none →
        ∃ resume, processRequestAccount ctx ⟨pubkey,data⟩ server =
          .call (server.log (.processing ⟨pubkey,data⟩)) (.exec (ctx.cli.proveCommand (toHex reference.seed))) resume := by
  refine ⟨_,decodeRandomnessRequest_eq fits,pending.1,?_,?_,parseRequestAccount_eq fits,?_⟩
  · simp [pending.2.2]
  · simp [length_slice]
    omega
  · intro ctx server pubkey fresh
    have short : ¬ data.length < 8 := by omega
    simp only [processRequestAccount,M.bind_apply,emit_apply,getServer_apply,Prog.ret_bind,Server.log_processedRequests,
      fresh,Option.isSome_none,tryCatch_apply,fulfillRequest,short,if_false,pending.tagged,ne_eq,not_true_eq_false,
      parseRequestAccount_eq fits,liftExcept_ok,M.pure_apply]
    exact ⟨_,rfl⟩

-- Every enumerated account has its turn. The scanner returns, in enumeration order, only
-- accounts whose buffer holds the tag and a zero status byte at `116 + L`, and each one that
-- meets no entry, or a stale one it evicts, exactly then; the reference decoder asks for
-- `166 + L` bytes, and the records in between are returned too.
theorem pendingRequests_statusPending :
    (∀ ctx server, (getPendingRequestAccounts ctx server).wp (fun _ _ => True)
      (fun pending after => ∃ accounts,
        Scanned (server.log (.io (.getProgramAccounts ctx.vrfProgramId) (Except.ok accounts))) accounts pending after)
      (fun _ _ => True)) ∧
    (∀ server accounts pending after, Scanned server accounts pending after →
      pending.Sublist accounts ∧ ∀ account ∈ pending, StatusPending account.data) ∧
    (∀ server accounts pending after account, Scanned server accounts pending after → account ∈ accounts →
      server.processedRequests account.pubkey = none → (account ∈ pending ↔ StatusPending account.data)) ∧
    (∀ data, StatusPending data → 166 + callbackLength data ≤ data.length →
      ∃ reference, decodeRandomnessRequest data = some reference ∧ reference.tag = requestDiscriminator ∧
        reference.status = 0 ∧ reference.requestId.length = 32 ∧
        parseRequestAccount data = .ok ⟨reference.subscription,reference.seed,reference.requester,reference.poolId,
          reference.requestIndex,reference.requestId⟩ ∧
        ∀ ctx server pubkey, server.processedRequests pubkey = none →
          ∃ resume, processRequestAccount ctx ⟨pubkey,data⟩ server =
            .call (server.log (.processing ⟨pubkey,data⟩)) (.exec (ctx.cli.proveCommand (toHex reference.seed)))
              resume) ∧
    (∀ data, StatusPending data → 117 ≤ data.length ∧ slice data 0 8 = requestDiscriminator) := by
  refine ⟨fun ctx server => ?_,fun _ _ _ _ scanned => scanned.returned,
    fun _ _ _ _ _ scanned listed unseen => scanned.unseen_returned listed unseen,fun _ => fullRecord_parsed,
    fun _ pending => ⟨pending.long,pending.1⟩⟩
  exact Prog.wp_mono (getPendingRequestAccounts_examines ctx server) (fun _ _ _ => trivial) (fun _ _ => id)
    fun _ _ _ => trivial

-- A record cut off right after its status byte: the scanner returns it, the reference
-- decoder rejects it.
theorem truncatedRequest_returned :
    decodeRandomnessRequest (requestDiscriminator ++ List.replicate 109 0) = none ∧
      (scanAccounts [⟨[],requestDiscriminator ++ List.replicate 109 0⟩] (initialServer 0)).wp (fun _ _ => False)
        (fun pending _ => pending = [⟨[],requestDiscriminator ++ List.replicate 109 0⟩]) (fun _ _ => False) := by
  have pending : StatusPending (requestDiscriminator ++ List.replicate 109 0) := by decide
  refine ⟨by decide,?_⟩
  generalize requestDiscriminator ++ List.replicate 109 0 = data at pending ⊢
  have long : ¬ data.length < 32 := by have := pending.long; omega
  simp [scanAccounts,Prog.wp_scanAccount,long,pending.tagged,Prog.wp_isRequestPending,initialServer,pending]

end KamuiVrf
