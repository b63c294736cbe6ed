import KamuiVrf.Codec
import KamuiVrf.Encoding

namespace KamuiVrf

-- The integration test's request-account reads and its `VRFEventMonitor` callback.

/-! ## The end-to-end test's fulfillment -/

structure TestRequestFields where
  requestPoolId : Nat
  requestIndex : Nat
  requestId : Bytes
deriving DecidableEq, Repr

def readTestRequestFields (data : Bytes) : Except JsValue TestRequestFields := do
  let dataOffset := 8 + 32 + 32 + 32
  let callbackLength ← readUInt32LE data dataOffset
  let dataOffset := dataOffset + 4 + callbackLength
  let dataOffset := dataOffset + 8 + 1 + 4 + 8
  let requestPoolId ← readUInt8 data dataOffset
  let dataOffset := dataOffset + 1
  let requestIndex ← readUInt32LE data dataOffset
  let dataOffset := dataOffset + 4
  let requestId := slice data dataOffset (dataOffset + 32)
  pure ⟨requestPoolId,requestIndex,requestId⟩

def testFulfillment (proof publicKey requestAccount : Bytes) : Except JsValue Bytes := do
  let fields ← readTestRequestFields requestAccount
  testFulfillData proof publicKey fields.requestId fields.requestPoolId fields.requestIndex

theorem readTestRequestFields_parse (data : Bytes) :
    readTestRequestFields data =
      (fun parsed => ⟨parsed.poolId,parsed.requestIndex,parsed.requestId⟩) <$> parseRequestAccount data := by
  simp only [readTestRequestFields,parseRequestAccount,map_bind,map_pure]

-- The test's fulfillment of a record the reference decoder accepts decodes to its fields.
theorem testFulfillment_decodes {proof publicKey requestAccount : Bytes} {request : RandomnessRequest}
    (proofFits : proof.length < 2 ^ 32) (keyFits : publicKey.length < 2 ^ 32)
    (decoded : decodeRandomnessRequest requestAccount = some request) :
    ∃ data, testFulfillment proof publicKey requestAccount = .ok data ∧
      decodeFulfillRandomness data = some (⟨fulfillDiscriminator,proof,publicKey,request.requestId,request.poolId,
        request.requestIndex⟩,[]) := by
  have fits := (decodeRandomnessRequest_isSome requestAccount).mp (by rw [decoded]; rfl)
  rw [decodeRandomnessRequest_eq fits,Option.some.injEq] at decoded
  subst decoded
  obtain ⟨idWidth,poolFits,indexFits⟩ := fullRecord_fields fits
  have laid := fulfillData_eq proofFits keyFits idWidth poolFits indexFits
  refine ⟨_,by rw [testFulfillment,readTestRequestFields_parse,parseRequestAccount_eq fits]; exact laid,?_⟩
  simpa [flatMap_fulfillWrites] using
    decodeFulfillRandomness_append proofFits keyFits idWidth poolFits indexFits []

set_option maxRecDepth 4000 in
theorem testFulfillment_decodes_zeroCallback :
    ([1] : Bytes).length < 2 ^ 32 ∧ ([2] : Bytes).length < 2 ^ 32 ∧
      decodeRandomnessRequest (List.replicate 134 0 ++ List.replicate 32 9) = some ⟨List.replicate 8 0,
        List.replicate 32 0,List.replicate 32 0,List.replicate 32 0,0,0,0,List.replicate 32 9⟩ ∧
      ∃ data, testFulfillment [1] [2] (List.replicate 134 0 ++ List.replicate 32 9) = .ok data ∧
        decodeFulfillRandomness data = some (⟨fulfillDiscriminator,[1],[2],List.replicate 32 9,0,0⟩,[]) :=
  have decoded : decodeRandomnessRequest (List.replicate 134 0 ++ List.replicate 32 9) = some ⟨List.replicate 8 0,
      List.replicate 32 0,List.replicate 32 0,List.replicate 32 0,0,0,0,List.replicate 32 9⟩ := by decide
  ⟨by decide,by decide,decoded,testFulfillment_decodes (by decide) (by decide) decoded⟩

/-! ## The end-to-end test's event monitor -/

def monitorRequestDiscriminator : String := "TBD"

-- `onProgramAccountChange` of `startMonitoring`: the seed handed to `handleRandomnessRequest`.
def monitorAccountChange (data : Bytes) : Option Bytes :=
  if data.length > 8 then
    if toHex (slice data 0 8) = monitorRequestDiscriminator then some (slice data 40 72) else none
  else none

theorem monitorAccountChange_none (data : Bytes) : monitorAccountChange data = none := by
  unfold monitorAccountChange
  split_ifs with long same
  · have digits := congrArg String.length same
    rw [show (toHex (slice data 0 8)).length = 2 * (slice data 0 8).length from length_flatMap_hexByte _,
      length_slice,show monitorRequestDiscriminator.length = 3 from rfl] at digits
    omega
  all_goals rfl

end KamuiVrf
