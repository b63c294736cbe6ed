import KamuiVrf.Pipeline

namespace KamuiVrf

theorem length_flatMap_fulfillWrites {proofBuffer publicKeyBuffer requestId : Bytes} {poolId requestIndex : Nat}
    (idWidth : requestId.length = 32) :
    ((fulfillWrites proofBuffer publicKeyBuffer requestId poolId requestIndex).flatMap FieldWrite.bytes).length =
      fulfillTotalSize proofBuffer publicKeyBuffer := by
  simp [flatMap_fulfillWrites,idWidth,fulfillTotalSize,fulfillDiscriminator]
  omega

-- With every field in range, the payload is its fields laid down in order, filling the
-- buffer exactly.
theorem fulfillData_eq {proofBuffer publicKeyBuffer requestId : Bytes} {poolId requestIndex : Nat}
    (proofFits : proofBuffer.length < 2 ^ 32) (keyFits : publicKeyBuffer.length < 2 ^ 32)
    (idWidth : requestId.length = 32) (poolFits : poolId < 256) (indexFits : requestIndex < 2 ^ 32) :
    fulfillData proofBuffer publicKeyBuffer requestId poolId requestIndex =
      .ok ((fulfillWrites proofBuffer publicKeyBuffer requestId poolId requestIndex).flatMap FieldWrite.bytes) := by
  have laid := writeFields_alloc _ (fulfillWrites_exact proofFits keyFits idWidth poolFits indexFits) []
    (length_flatMap_fulfillWrites idWidth).le
  rw [length_flatMap_fulfillWrites idWidth,Nat.sub_self] at laid
  simpa [fulfillData,alloc] using laid

-- The instruction data holds `53 + |p| + |k|` bytes, written once each, reads back as the
-- `fulfill_randomness` arguments with nothing left over, and is the integration test's buffer.
theorem fulfillmentInstruction_roundTrip (ctx : Context) (requestAccount : Bytes) (proofResult : ProofResult)
    (requestId : Bytes) (poolId requestIndex : Nat) (subscriptionPDA : Bytes)
    (proofFits : (fromHex proofResult.proof).length < 2 ^ 32) (keyFits : (fromHex ctx.cli.getPublicKey).length < 2 ^ 32)
    (idWidth : requestId.length = 32) (poolFits : poolId < 256) (indexFits : requestIndex < 2 ^ 32) :
    ∃ instruction, createFulfillmentInstruction ctx requestAccount proofResult requestId poolId requestIndex
        subscriptionPDA = .ok instruction ∧
      instruction.data.length = 53 + (fromHex proofResult.proof).length + (fromHex ctx.cli.getPublicKey).length ∧
      instruction.data = (fulfillWrites (fromHex proofResult.proof) (fromHex ctx.cli.getPublicKey) requestId poolId
        requestIndex).flatMap FieldWrite.bytes ∧
      Tiles (writeRegions 0 (fulfillWrites (fromHex proofResult.proof) (fromHex ctx.cli.getPublicKey) requestId poolId
        requestIndex)) 0 instruction.data.length ∧
      decodeFulfillRandomness instruction.data = some (⟨fulfillDiscriminator,fromHex proofResult.proof,
        fromHex ctx.cli.getPublicKey,requestId,poolId,requestIndex⟩,[]) ∧
      testFulfillData (fromHex proofResult.proof) (fromHex ctx.cli.getPublicKey) requestId poolId requestIndex =
        .ok instruction.data := by
  have laid := fulfillData_eq proofFits keyFits idWidth poolFits indexFits
  rw [createFulfillmentInstruction_eq,laid]
  -- the test's encoder is the same sequence of writes
  refine ⟨_,rfl,?_,rfl,?_,?_,laid⟩
  · rw [length_flatMap_fulfillWrites idWidth,fulfillTotalSize]
    omega
  · simpa using writeRegions_tiles _ (fulfillWrites_exact proofFits keyFits idWidth poolFits indexFits) 0
  · simpa [flatMap_fulfillWrites] using decodeFulfillRandomness_append proofFits keyFits idWidth poolFits indexFits []

theorem fulfillmentInstruction_roundTrip_sample :
    let ctx : Context := ⟨[],[],⟨"",⟨"","cd"⟩⟩,0,fun _ _ => [],fun _ => none⟩
    (fromHex "ab").length < 2 ^ 32 ∧ (fromHex ctx.cli.getPublicKey).length < 2 ^ 32 ∧
      (List.replicate 32 (0 : UInt8)).length = 32 ∧ 7 < 256 ∧ 3 < 2 ^ 32 ∧
      ∃ instruction, createFulfillmentInstruction ctx [] ⟨"ab","ef"⟩ (List.replicate 32 0) 7 3 [] = .ok instruction ∧
        instruction.data.length = 53 + (fromHex "ab").length + (fromHex ctx.cli.getPublicKey).length ∧
        instruction.data = (fulfillWrites (fromHex "ab") (fromHex ctx.cli.getPublicKey) (List.replicate 32 0) 7 3).flatMap
          FieldWrite.bytes ∧
        Tiles (writeRegions 0 (fulfillWrites (fromHex "ab") (fromHex ctx.cli.getPublicKey) (List.replicate 32 0) 7 3)) 0
          instruction.data.length ∧
        decodeFulfillRandomness instruction.data = some (⟨fulfillDiscriminator,fromHex "ab",fromHex ctx.cli.getPublicKey,
          List.replicate 32 0,7,3⟩,[]) ∧
        testFulfillData (fromHex "ab") (fromHex ctx.cli.getPublicKey) (List.replicate 32 0) 7 3 = .ok instruction.data :=
  ⟨by decide,by decide,by decide,by decide,by decide,
    fulfillmentInstruction_roundTrip _ [] ⟨"ab","ef"⟩ (List.replicate 32 0) 7 3 [] (by decide) (by decide) (by decide)
      (by decide) (by decide)⟩

end KamuiVrf
