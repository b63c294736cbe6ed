import Mathlib.Data.Int.Bitwise
import KamuiVrf.Payload

namespace KamuiVrf

-- The byte encoders of the VRF demo's `requestRandomness` and of the integration test.

/-! ## `serializeU64` -/

-- One turn of `serializeU64`'s loop: `buffer[i] = Number(val & BigInt(0xFF)); val = val >> BigInt(8);`
def serializeU64Turn (state : Bytes × Int) (i : Nat) : Bytes × Int :=
  (state.1.set i (UInt8.ofNat (Int.land state.2 0xFF).toNat),Int.shiftRight state.2 8)

def serializeU64 (value : Int) : Bytes :=
  ((List.range 8).foldl serializeU64Turn (alloc 8,value)).1

theorem ldiff_lowByte (m : Nat) : Nat.ldiff 255 m = 2 ^ 8 - (m % 2 ^ 8 + 1) := by
  apply Nat.eq_of_testBit_eq
  intro i
  rw [Nat.testBit_ldiff,Nat.testBit_two_pow_sub_succ (Nat.mod_lt _ (by decide)),Nat.testBit_mod_two_pow,
    show (255 : Nat) = 2 ^ 8 - 1 from rfl,Nat.testBit_two_pow_sub_one]
  cases decide (i < 8) <;> simp

theorem land_lowByte (value : Int) : Int.land value 0xFF = value % 256 := by
  cases value with
  | ofNat n => exact (congrArg Int.ofNat (Nat.and_pow_two_sub_one_eq_mod _ 8)).trans (by simp)
  | negSucc m =>
    show Int.ofNat (Nat.ldiff 255 m) = _
    rw [ldiff_lowByte,Int.negSucc_emod _ (by decide),Int.ofNat_eq_coe]
    have : m % 2 ^ 8 < 256 := Nat.mod_lt _ (by decide)
    push_cast [Nat.cast_sub (by omega : m % 2 ^ 8 + 1 ≤ 2 ^ 8)]
    omega

theorem leBytes_leValue : ∀ bytes : Bytes, leBytes bytes.length (leValue bytes) = bytes
  | [] => rfl
  | b :: rest => by
    have byte : b.toNat < 256 := b.toNat_lt_size
    have low : (b.toNat + 256 * leValue rest) % 256 = b.toNat := by omega
    have high : (b.toNat + 256 * leValue rest) / 256 = leValue rest := by omega
    rw [List.length_cons,leValue,leBytes,low,high,leBytes_leValue rest]
    exact congrArg (· :: rest) (UInt8.toNat.inj (UInt8.toNat_ofNat_of_lt byte))

-- After `k` turns, `value = written + 256^k * val`.
theorem foldl_serializeU64Turn (value : Int) {turns : Nat} (within : turns ≤ 8) :
    ∃ written rest, (List.range turns).foldl serializeU64Turn (alloc 8,value) = (written ++ alloc (8 - turns),rest) ∧
      written.length = turns ∧ (leValue written : Int) + 256 ^ turns * rest = value := by
  induction turns with
  | zero => exact ⟨[],value,by simp [alloc],rfl,by simp [leValue]⟩
  | succ turns ih =>
    obtain ⟨written,rest,folded,length,sum⟩ := ih (by omega)
    have room : 8 - turns = (8 - (turns + 1)) + 1 := by omega
    have residue : 0 ≤ rest % 256 ∧ rest % 256 < 256 := ⟨Int.emod_nonneg _ (by decide),Int.emod_lt_of_pos _ (by decide)⟩
    have byte : (UInt8.ofNat (rest % 256).toNat).toNat = (rest % 256).toNat :=
      UInt8.toNat_ofNat_of_lt (by show _ < 256; omega)
    refine ⟨written ++ [UInt8.ofNat (rest % 256).toNat],rest / 256,?_,by simp [length],?_⟩
    · rw [List.range_succ,List.foldl_append,folded,List.foldl_cons,List.foldl_nil]
      show ((written ++ alloc (8 - turns)).set turns (UInt8.ofNat (Int.land rest 0xFF).toNat),Int.shiftRight rest 8) = _
      rw [land_lowByte,← Int.shiftRight_eq,Int.shiftRight_eq_div_pow,List.set_append_right _ _ (by omega),length,
        Nat.sub_self,room,alloc,List.replicate_succ,List.set_cons_zero,List.append_assoc]
      rfl
    · rw [leValue_append,length,leValue,leValue,byte,← sum,pow_succ]
      push_cast [Int.toNat_of_nonneg residue.1]
      calc (leValue written : Int) + 256 ^ turns * (rest % 256 + 256 * 0) + 256 ^ turns * 256 * (rest / 256)
          = (leValue written : Int) + 256 ^ turns * (rest % 256 + 256 * (rest / 256)) := by ring
        _ = (leValue written : Int) + 256 ^ turns * rest := by rw [Int.emod_add_ediv]

theorem serializeU64_eq (value : Int) : serializeU64 value = leBytes 8 (value % 2 ^ 64).toNat := by
  obtain ⟨written,rest,folded,length,sum⟩ := foldl_serializeU64Turn value (le_refl 8)
  have bound : (leValue written : Int) < 2 ^ 64 := by
    have : leValue written < 2 ^ 64 := by simpa [length] using leValue_lt written
    exact_mod_cast this
  have low : value % 2 ^ 64 = leValue written := by
    rw [← sum,show (256 : Int) ^ 8 = 2 ^ 64 by norm_num,Int.add_mul_emod_self_left,
      Int.emod_eq_of_lt (by omega) bound]
  rw [serializeU64,folded,low,Int.toNat_ofNat,← length,leBytes_leValue]
  simp [alloc]

theorem serializeU64_littleEndian (value : Int) :
    serializeU64 value = leBytes 8 (value % 2 ^ 64).toNat ∧ leValue (serializeU64 value) = (value % 2 ^ 64).toNat := by
  have fits : (value % 2 ^ 64).toNat < 256 ^ 8 := by
    have := Int.emod_lt_of_pos value (by decide : (0 : Int) < 2 ^ 64)
    have := Int.emod_nonneg value (by decide : (2 : Int) ^ 64 ≠ 0)
    omega
  exact ⟨serializeU64_eq value,by rw [serializeU64_eq,leValue_leBytes_of_lt fits]⟩

/-! ## `serializeU32` and `serializeU16` -/

def dataViewRangeError : JsValue := .error "RangeError" "Offset is outside the bounds of the DataView"

-- `DataView.setUint32` / `setUint16`: the value wraps, and a write past the buffer throws.
def dataViewSetUint (width : Nat) (buffer : Bytes) (byteOffset : Nat) (value : Int) (littleEndian : Bool) :
    Except JsValue Bytes :=
  if byteOffset + width ≤ buffer.length then
    let bytes := leBytes width (value % 2 ^ (8 * width)).toNat
    .ok (copyInto (if littleEndian then bytes else bytes.reverse) buffer byteOffset)
  else .error dataViewRangeError

def serializeUint (width : Nat) (value : Int) : Except JsValue Bytes := dataViewSetUint width (alloc width) 0 value true

def serializeU32 (value : Int) : Except JsValue Bytes := serializeUint 4 value

def serializeU16 (value : Int) : Except JsValue Bytes := serializeUint 2 value

-- The test's `writeUInt32LE` / `writeUInt16LE`, whose `checkInt` also rejects a negative value.
def testSerializeUint (width : Nat) (value : Int) : Except JsValue Bytes :=
  if 0 ≤ value then writeUInt width (alloc width) value.toNat 0 else .error rangeError

def testSerializeU32 (value : Int) : Except JsValue Bytes := testSerializeUint 4 value

def testSerializeU16 (value : Int) : Except JsValue Bytes := testSerializeUint 2 value

theorem copyInto_whole (source : Bytes) {width : Nat} (sized : source.length = width) :
    copyInto source (alloc width) 0 = source := by
  simpa [alloc,sized] using copyInto_alloc source [] (le_of_eq sized)

theorem serializeUint_eq (width : Nat) (value : Int) :
    serializeUint width value = .ok (leBytes width (value % 2 ^ (8 * width)).toNat) := by
  simp [serializeUint,dataViewSetUint,copyInto_whole]

theorem testSerializeUint_eq (width : Nat) (value : Int) :
    testSerializeUint width value =
      if 0 ≤ value ∧ value < 2 ^ (8 * width) then .ok (leBytes width value.toNat) else .error rangeError := by
  by_cases sign : 0 ≤ value
  · have wide : (256 ^ width : Int) = 2 ^ (8 * width) := by rw [pow_mul]; norm_num
    have fits : value.toNat < 256 ^ width ↔ value < 2 ^ (8 * width) := by
      rw [Int.toNat_lt sign,← wide]
      norm_cast
    by_cases small : value < 2 ^ (8 * width)
    · simp [testSerializeUint,writeUInt,sign,small,fits.mpr small,copyInto_whole]
    · simp [testSerializeUint,writeUInt,sign,small,mt fits.mp small]
  · simp [testSerializeUint,sign]

/-! ## `concatUint8Arrays` -/

def typedArrayRangeError : JsValue := .error "RangeError" "offset is out of bounds"

def typedArraySet (target source : Bytes) (offset : Nat) : Except JsValue Bytes :=
  if offset + source.length ≤ target.length then .ok (copyInto source target offset) else .error typedArrayRangeError

-- One turn of `for (const arr of arrays) { result.set(arr, offset); offset += arr.length; }`
def concatTurn (state : Bytes × Nat) (arr : Bytes) : Except JsValue (Bytes × Nat) := do
  let result ← typedArraySet state.1 arr state.2
  pure (result,state.2 + arr.length)

def concatUint8Arrays (arrays : List Bytes) : Except JsValue Bytes := do
  let totalLength := arrays.foldl (fun sum arr => sum + arr.length) 0
  let (result,_) ← arrays.foldlM concatTurn (alloc totalLength,0)
  pure result

theorem foldl_length (arrays : List Bytes) (start : Nat) :
    arrays.foldl (fun sum arr => sum + arr.length) start = start + arrays.flatten.length := by
  induction arrays generalizing start with
  | nil => rfl
  | cons arr rest ih => rw [List.foldl_cons,ih,List.flatten_cons,List.length_append,Nat.add_assoc]

theorem foldlM_concatTurn (done rest : List Bytes) :
    rest.foldlM concatTurn (done.flatten ++ alloc rest.flatten.length,done.flatten.length) =
      .ok ((done ++ rest).flatten,(done ++ rest).flatten.length) := by
  induction rest generalizing done with
  | nil => simp [alloc]
  | cons arr rest ih =>
    have fits : done.flatten.length + arr.length ≤ (done.flatten ++ alloc (arr :: rest).flatten.length).length := by
      simp
    have placed : typedArraySet (done.flatten ++ alloc (arr :: rest).flatten.length) arr done.flatten.length =
        .ok ((done ++ [arr]).flatten ++ alloc rest.flatten.length) := by
      rw [typedArraySet,if_pos fits,List.flatten_cons,List.length_append,copyInto_alloc _ _ (by omega)]
      simp
    have offset : done.flatten.length + arr.length = (done ++ [arr]).flatten.length := by simp
    rw [List.foldlM_cons,concatTurn,placed,except_ok_bind,except_pure,except_ok_bind,offset,ih]
    simp

theorem concatUint8Arrays_eq (arrays : List Bytes) : concatUint8Arrays arrays = .ok arrays.flatten := by
  have run := foldlM_concatTurn [] arrays
  simp only [List.flatten_nil,List.nil_append,List.length_nil] at run
  simp only [concatUint8Arrays,foldl_length,Nat.zero_add,run,except_ok_bind]
  rfl

/-! ## `requestRandomness`'s instruction data -/

def createSubscriptionDiscriminator : Bytes := [75,228,93,239,254,201,220,235]
def fundSubscriptionDiscriminator : Bytes := [224,196,55,110,8,87,188,114]
def initializeRequestPoolDiscriminator : Bytes := [179,102,255,254,232,62,64,97]
def requestRandomnessDiscriminator : Bytes := [213,5,173,166,37,236,31,18]

def createSubscriptionData : Except JsValue Bytes := do
  let maxRequests ← serializeU16 10
  concatUint8Arrays [createSubscriptionDiscriminator,serializeU64 10000000,[3],maxRequests]

def fundData : Except JsValue Bytes := concatUint8Arrays [fundSubscriptionDiscriminator,serializeU64 50000000]

def initPoolData : Except JsValue Bytes := do
  let maxSize ← serializeU32 100
  concatUint8Arrays [initializeRequestPoolDiscriminator,[0],maxSize]

def requestData (seed : Bytes) : Except JsValue Bytes := do
  let callbackLength ← serializeU32 0
  let numWords ← serializeU32 1
  concatUint8Arrays [requestRandomnessDiscriminator,seed,callbackLength,numWords,[1],serializeU64 100000,[0]]

-- The integration test's `createSubscriptionData`, `fundData` and `poolData`.
def testCreateSubscriptionData : Except JsValue Bytes := do
  let maxRequests ← testSerializeU16 10
  pure [createSubscriptionDiscriminator,serializeU64 10000000,[3],maxRequests].flatten

def testFundData : Bytes := [fundSubscriptionDiscriminator,serializeU64 50000000].flatten

def testPoolData : Except JsValue Bytes := do
  let maxSize ← testSerializeU32 100
  pure [initializeRequestPoolDiscriminator,[0],maxSize].flatten

example : createSubscriptionData = testCreateSubscriptionData := rfl
example : fundData = .ok testFundData := rfl
example : initPoolData = testPoolData := rfl

structure RequestRandomness where
  discriminator : Bytes
  seed : Bytes
  callbackData : Bytes
  numWords : Nat
  minimumConfirmations : Nat
  callbackGasLimit : Nat
  poolId : Nat
deriving DecidableEq, Repr

def takeU8 (data : Bytes) : Option (Nat × Bytes) :=
  (takeBytes 1 data).map fun (byte,rest) => (leValue byte,rest)

def takeU64 (data : Bytes) : Option (Nat × Bytes) :=
  (takeBytes 8 data).map fun (word,rest) => (leValue word,rest)

def decodeRequestRandomness (data : Bytes) : Option (RequestRandomness × Bytes) := do
  let (discriminator,rest) ← takeBytes 8 data
  let (seed,rest) ← takeBytes 32 rest
  let (callbackData,rest) ← takeVec rest
  let (numWords,rest) ← takeU32 rest
  let (minimumConfirmations,rest) ← takeU8 rest
  let (callbackGasLimit,rest) ← takeU64 rest
  let (poolId,rest) ← takeU8 rest
  pure (⟨discriminator,seed,callbackData,numWords,minimumConfirmations,callbackGasLimit,poolId⟩,rest)

theorem takeU8_append {value : Nat} (fits : value < 256) (rest : Bytes) :
    takeU8 (leBytes 1 value ++ rest) = some (value,rest) := by
  have byte := takeBytes_append (leBytes 1 value) rest
  rw [length_leBytes] at byte
  simp [takeU8,byte,leValue_leBytes_of_lt (show value < 256 ^ 1 by simpa using fits)]

theorem takeU64_append {value : Nat} (fits : value < 2 ^ 64) (rest : Bytes) :
    takeU64 (leBytes 8 value ++ rest) = some (value,rest) := by
  have word := takeBytes_append (leBytes 8 value) rest
  rw [length_leBytes] at word
  simp [takeU64,word,leValue_leBytes_of_lt (show value < 256 ^ 8 by simpa using fits)]

def requestRandomnessBytes (seed : Bytes) : Bytes :=
  requestRandomnessDiscriminator ++ seed ++ leBytes 4 0 ++ leBytes 4 1 ++ leBytes 1 1 ++ leBytes 8 100000 ++ leBytes 1 0

theorem requestData_eq (seed : Bytes) : requestData seed = .ok (requestRandomnessBytes seed) := by
  simp only [requestData,serializeU32,serializeUint_eq,except_ok_bind,concatUint8Arrays_eq,serializeU64_eq,
    requestRandomnessBytes,List.flatten_cons,List.flatten_nil,List.append_assoc,List.append_nil]
  rfl

theorem length_requestRandomnessBytes {seed : Bytes} (sized : seed.length = 32) :
    (requestRandomnessBytes seed).length = 58 := by
  simp [requestRandomnessBytes,sized,requestRandomnessDiscriminator]

theorem decodeRequestRandomness_bytes {seed : Bytes} (sized : seed.length = 32) :
    decodeRequestRandomness (requestRandomnessBytes seed) =
      some (⟨requestRandomnessDiscriminator,seed,[],1,1,100000,0⟩,[]) := by
  have tag := takeBytes_append requestRandomnessDiscriminator
    (seed ++ leBytes 4 0 ++ leBytes 4 1 ++ leBytes 1 1 ++ leBytes 8 100000 ++ leBytes 1 0)
  have seeded := takeBytes_append seed (leBytes 4 0 ++ leBytes 4 1 ++ leBytes 1 1 ++ leBytes 8 100000 ++ leBytes 1 0)
  have empty : ∀ rest, takeVec (leBytes 4 0 ++ rest) = some ([],rest) := @takeVec_append [] (by decide)
  rw [sized] at seeded
  rw [show requestRandomnessDiscriminator.length = 8 from rfl] at tag
  simp only [List.append_assoc] at tag seeded
  simp only [requestRandomnessBytes,List.append_assoc,decodeRequestRandomness,tag,seeded,empty,
    takeU32_append (by decide : 1 < 2 ^ 32),takeU8_append (by decide : 1 < 256),takeU8_append (by decide : 0 < 256),
    takeU64_append (by decide : 100000 < 2 ^ 64),Option.bind_eq_bind,Option.some_bind,List.append_nil]
  rfl

-- `requestData` of the end-to-end test: field writes into a zeroed 58-byte buffer.
def testRequestData (seed : Bytes) : Except JsValue Bytes := do
  let requestData ← writeFields (alloc (8 + 32 + 4 + 4 + 1 + 8 + 1)) 0
    [.copy requestRandomnessDiscriminator 8,.copy seed 32,.u32 0,.u32 1,.u8 1]
  let requestData ← writeUInt 8 requestData 100000 49
  writeUInt8 requestData 0 57

theorem writeUInt_alloc {width value offset room : Nat} {front : Bytes} (fits : value < 256 ^ width)
    (placed : front.length = offset) (wide : width ≤ room) :
    writeUInt width (front ++ alloc room) value offset = .ok (front ++ leBytes width value ++ alloc (room - width)) := by
  subst placed
  have laid : copyInto (leBytes width value) (front ++ alloc room) front.length =
      front ++ leBytes width value ++ alloc (room - (leBytes width value).length) :=
    copyInto_alloc _ front (by rw [length_leBytes]; exact wide)
  have inside : front.length + width ≤ (front ++ alloc room).length := by simp [alloc]; omega
  rw [writeUInt,if_pos fits,if_pos inside,laid,length_leBytes]

theorem testRequestData_eq {seed : Bytes} (sized : seed.length = 32) :
    testRequestData seed = .ok (requestRandomnessBytes seed) := by
  have written : writeFields (alloc (8 + 32 + 4 + 4 + 1 + 8 + 1)) 0
      [.copy requestRandomnessDiscriminator 8,.copy seed 32,.u32 0,.u32 1,.u8 1] =
      .ok (requestRandomnessDiscriminator ++ seed ++ leBytes 4 0 ++ leBytes 4 1 ++ leBytes 1 1 ++ alloc 9) := by
    simpa [FieldWrite.bytes,sized,requestRandomnessDiscriminator] using
      writeFields_alloc [.copy requestRandomnessDiscriminator 8,.copy seed 32,.u32 0,.u32 1,.u8 1]
        (by simp [FieldWrite.Exact,sized,requestRandomnessDiscriminator]) []
        (show _ ≤ 8 + 32 + 4 + 4 + 1 + 8 + 1 by simp [FieldWrite.bytes,sized,requestRandomnessDiscriminator])
  have front : (requestRandomnessDiscriminator ++ seed ++ leBytes 4 0 ++ leBytes 4 1 ++ leBytes 1 1).length = 49 := by
    simp [sized,requestRandomnessDiscriminator]
  have gas : (requestRandomnessDiscriminator ++ seed ++ leBytes 4 0 ++ leBytes 4 1 ++ leBytes 1 1 ++
      leBytes 8 100000).length = 57 := by
    simp [sized,requestRandomnessDiscriminator]
  rw [testRequestData,written,except_ok_bind,writeUInt_alloc (by decide) front (by decide),except_ok_bind,writeUInt8,
    writeUInt_alloc (by decide) gas (by decide)]
  simp [requestRandomnessBytes,alloc]

example : testRequestData (List.replicate 32 7) = requestData (List.replicate 32 7) := rfl

theorem requestData_decodes {seed : Bytes} (sized : seed.length = 32) :
    ∃ data, requestData seed = .ok data ∧ data.length = 58 ∧
      decodeRequestRandomness data = some (⟨requestRandomnessDiscriminator,seed,[],1,1,100000,0⟩,[]) :=
  ⟨_,requestData_eq seed,length_requestRandomnessBytes sized,decodeRequestRandomness_bytes sized⟩

end KamuiVrf
