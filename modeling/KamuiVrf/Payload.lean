import KamuiVrf.Node

namespace KamuiVrf

-- One write of a running-offset encoder: the bytes go to `fulfillOffset`, which
-- then moves on by the width the code adds (for a copy, the width it declares).
inductive FieldWrite where
  | copy (source : Bytes) (advance : Nat)
  | u32 (value : Nat)
  | u8 (value : Nat)
deriving DecidableEq, Repr

namespace FieldWrite

def apply (buf : Bytes) (offset : Nat) : FieldWrite → Except JsValue Bytes
  | copy source _ => .ok (copyInto source buf offset)
  | u32 value => writeUInt32LE buf value offset
  | u8 value => writeUInt8 buf value offset

def advance : FieldWrite → Nat
  | copy _ advance => advance
  | u32 _ => 4
  | u8 _ => 1

-- The bytes a write puts down when its value fits.
def bytes : FieldWrite → Bytes
  | copy source _ => source
  | u32 value => leBytes 4 value
  | u8 value => leBytes 1 value

-- The value fits its width and a copy advances by its own length.
def Exact : FieldWrite → Prop
  | copy source advance => advance = source.length
  | u32 value => value < 256 ^ 4
  | u8 value => value < 256 ^ 1

end FieldWrite

def writeFields (buf : Bytes) (offset : Nat) : List FieldWrite → Except JsValue Bytes
  | [] => .ok buf
  | field :: rest => do
    let buf ← field.apply buf offset
    writeFields buf (offset + field.advance) rest

-- The byte ranges the writes cover, each from the running offset.
def writeRegions (offset : Nat) : List FieldWrite → List (Nat × Nat)
  | [] => []
  | field :: rest => (offset,offset + field.bytes.length) :: writeRegions (offset + field.advance) rest

-- The ranges follow each other from `start` to `stop`: no gap, no overlap.
def Tiles : List (Nat × Nat) → Nat → Nat → Prop
  | [],start,stop => start = stop
  | (low,high) :: rest,start,stop => low = start ∧ Tiles rest high stop

def fulfillDiscriminator : Bytes := [235,105,140,46,40,88,117,2]

-- `createFulfillmentInstruction`'s instruction data, one entry per write.
def fulfillWrites (proofBuffer publicKeyBuffer requestId : Bytes) (poolId requestIndex : Nat) : List FieldWrite :=
  [.copy fulfillDiscriminator 8,.u32 proofBuffer.length,.copy proofBuffer proofBuffer.length,
    .u32 publicKeyBuffer.length,.copy publicKeyBuffer publicKeyBuffer.length,.copy requestId 32,.u8 poolId,
    .u32 requestIndex]

def fulfillTotalSize (proofBuffer publicKeyBuffer : Bytes) : Nat :=
  8 + 4 + proofBuffer.length + 4 + publicKeyBuffer.length + 32 + 1 + 4

def fulfillData (proofBuffer publicKeyBuffer requestId : Bytes) (poolId requestIndex : Nat) : Except JsValue Bytes :=
  writeFields (alloc (fulfillTotalSize proofBuffer publicKeyBuffer)) 0
    (fulfillWrites proofBuffer publicKeyBuffer requestId poolId requestIndex)

-- The integration test's encoder, from `vrfResult.proof`, `vrfResult.public_key`,
-- the request's id, `requestPoolId` and `requestIndex`.
def testFulfillWrites (proof publicKey requestId : Bytes) (requestPoolId requestIndex : Nat) : List FieldWrite :=
  [.copy fulfillDiscriminator 8,.u32 proof.length,.copy proof proof.length,.u32 publicKey.length,
    .copy publicKey publicKey.length,.copy requestId 32,.u8 requestPoolId,.u32 requestIndex]

def testFulfillData (proof publicKey requestId : Bytes) (requestPoolId requestIndex : Nat) : Except JsValue Bytes :=
  writeFields (alloc (8 + 4 + proof.length + 4 + publicKey.length + 32 + 1 + 4)) 0
    (testFulfillWrites proof publicKey requestId requestPoolId requestIndex)

-- Reference decoder of `fulfill_randomness`'s arguments, a cursor over the data.
structure FulfillRandomness where
  discriminator : Bytes
  proof : Bytes
  publicKey : Bytes
  requestId : Bytes
  poolId : Nat
  requestIndex : Nat
deriving DecidableEq, Repr

def takeBytes (count : Nat) (data : Bytes) : Option (Bytes × Bytes) :=
  if count ≤ data.length then some (data.take count,data.drop count) else none

def takeU32 (data : Bytes) : Option (Nat × Bytes) :=
  (takeBytes 4 data).map fun (word,rest) => (leValue word,rest)

def takeVec (data : Bytes) : Option (Bytes × Bytes) := do
  let (length,rest) ← takeU32 data
  takeBytes length rest

def decodeFulfillRandomness (data : Bytes) : Option (FulfillRandomness × Bytes) := do
  let (discriminator,rest) ← takeBytes 8 data
  let (proof,rest) ← takeVec rest
  let (publicKey,rest) ← takeVec rest
  let (requestId,rest) ← takeBytes 32 rest
  let (poolId,rest) ← takeBytes 1 rest
  let (requestIndex,rest) ← takeU32 rest
  pure (⟨discriminator,proof,publicKey,requestId,leValue poolId,requestIndex⟩,rest)

theorem copyInto_alloc (source front : Bytes) {room : Nat} (fits : source.length ≤ room) :
    copyInto source (front ++ alloc room) front.length = front ++ source ++ alloc (room - source.length) := by
  simp [copyInto,alloc,Nat.min_eq_left fits,List.drop_append_of_le_length,List.drop_replicate]

theorem FieldWrite.apply_alloc {field : FieldWrite} (exact : field.Exact) (front : Bytes) {room : Nat}
    (fits : field.bytes.length ≤ room) :
    field.apply (front ++ alloc room) front.length = .ok (front ++ field.bytes ++ alloc (room - field.bytes.length)) := by
  cases field with
  | copy source advance => exact congrArg Except.ok (copyInto_alloc source front fits)
  | u32 value =>
    simp only [bytes,length_leBytes] at fits
    have small : value < 4294967296 := exact
    simp [apply,writeUInt32LE,writeUInt,small,fits,copyInto_alloc,bytes]
  | u8 value =>
    simp only [bytes,length_leBytes] at fits
    have small : value < 256 := exact
    simp [apply,writeUInt8,writeUInt,small,fits,copyInto_alloc,bytes]

theorem FieldWrite.advance_of_exact {field : FieldWrite} (exact : field.Exact) : field.advance = field.bytes.length := by
  cases field <;> simp_all [Exact,advance,bytes]

-- Writes that fit, at running offsets into a zeroed buffer, lay their bytes down in order.
theorem writeFields_alloc (fields : List FieldWrite) (exact : ∀ field ∈ fields, field.Exact) (front : Bytes)
    {room : Nat} (fits : (fields.flatMap FieldWrite.bytes).length ≤ room) :
    writeFields (front ++ alloc room) front.length fields =
      .ok (front ++ fields.flatMap FieldWrite.bytes ++ alloc (room - (fields.flatMap FieldWrite.bytes).length)) := by
  induction fields generalizing front room with
  | nil => simp [writeFields]
  | cons field rest ih =>
    simp only [List.flatMap_cons,List.length_append] at fits ⊢
    have head := exact field (List.mem_cons_self _ _)
    have moved := ih (fun other inside => exact other (List.mem_cons_of_mem _ inside)) (front ++ field.bytes)
      (show (rest.flatMap FieldWrite.bytes).length ≤ room - field.bytes.length by omega)
    simp only [writeFields,FieldWrite.apply_alloc head front (by omega : field.bytes.length ≤ room),except_ok_bind,
      FieldWrite.advance_of_exact head]
    rw [← List.length_append,moved]
    simp [List.append_assoc,Nat.sub_sub]

theorem writeRegions_tiles (fields : List FieldWrite) (exact : ∀ field ∈ fields, field.Exact) (start : Nat) :
    Tiles (writeRegions start fields) start (start + (fields.flatMap FieldWrite.bytes).length) := by
  induction fields generalizing start with
  | nil => rfl
  | cons field rest ih =>
    refine ⟨rfl,?_⟩
    have tail := ih (fun other inside => exact other (List.mem_cons_of_mem _ inside)) (start + field.advance)
    rw [FieldWrite.advance_of_exact (exact field (List.mem_cons_self _ _))] at tail ⊢
    simpa [Nat.add_assoc] using tail

theorem fulfillWrites_exact {proofBuffer publicKeyBuffer requestId : Bytes} {poolId requestIndex : Nat}
    (proofFits : proofBuffer.length < 2 ^ 32) (keyFits : publicKeyBuffer.length < 2 ^ 32)
    (idWidth : requestId.length = 32) (poolFits : poolId < 256) (indexFits : requestIndex < 2 ^ 32) :
    ∀ field ∈ fulfillWrites proofBuffer publicKeyBuffer requestId poolId requestIndex, field.Exact := by
  simp only [fulfillWrites,List.mem_cons,List.mem_singleton,List.not_mem_nil,or_false]
  rintro field (rfl|rfl|rfl|rfl|rfl|rfl|rfl|rfl) <;> simp_all [FieldWrite.Exact,fulfillDiscriminator]

-- The bytes the writes lay down: the payload in its declared field order.
theorem flatMap_fulfillWrites (proofBuffer publicKeyBuffer requestId : Bytes) (poolId requestIndex : Nat) :
    (fulfillWrites proofBuffer publicKeyBuffer requestId poolId requestIndex).flatMap FieldWrite.bytes =
      fulfillDiscriminator ++ leBytes 4 proofBuffer.length ++ proofBuffer ++ leBytes 4 publicKeyBuffer.length ++
        publicKeyBuffer ++ requestId ++ leBytes 1 poolId ++ leBytes 4 requestIndex := by
  simp [fulfillWrites,FieldWrite.bytes,List.append_assoc]

theorem takeBytes_append (front rest : Bytes) : takeBytes front.length (front ++ rest) = some (front,rest) := by
  simp [takeBytes]

theorem takeU32_append {value : Nat} (fits : value < 2 ^ 32) (rest : Bytes) :
    takeU32 (leBytes 4 value ++ rest) = some (value,rest) := by
  have word := takeBytes_append (leBytes 4 value) rest
  rw [length_leBytes] at word
  simp [takeU32,word,leValue_leBytes_of_lt (show value < 256 ^ 4 by simpa using fits)]

theorem takeVec_append {data : Bytes} (fits : data.length < 2 ^ 32) (rest : Bytes) :
    takeVec (leBytes 4 data.length ++ (data ++ rest)) = some (data,rest) := by
  simp [takeVec,takeU32_append fits,takeBytes_append]

-- Reading the fields back in order recovers each of them and leaves the suffix.
theorem decodeFulfillRandomness_append {proof publicKey requestId : Bytes} {poolId requestIndex : Nat}
    (proofFits : proof.length < 2 ^ 32) (keyFits : publicKey.length < 2 ^ 32) (idWidth : requestId.length = 32)
    (poolFits : poolId < 256) (indexFits : requestIndex < 2 ^ 32) (suffix : Bytes) :
    decodeFulfillRandomness (fulfillDiscriminator ++ leBytes 4 proof.length ++ proof ++ leBytes 4 publicKey.length ++
        publicKey ++ requestId ++ leBytes 1 poolId ++ leBytes 4 requestIndex ++ suffix) =
      some (⟨fulfillDiscriminator,proof,publicKey,requestId,poolId,requestIndex⟩,suffix) := by
  have tag := takeBytes_append fulfillDiscriminator
  have id := takeBytes_append requestId
  have pool := takeBytes_append (leBytes 1 poolId)
  rw [idWidth] at id
  rw [length_leBytes] at pool
  rw [show fulfillDiscriminator.length = 8 from rfl] at tag
  simp [decodeFulfillRandomness,List.append_assoc,tag,takeVec_append proofFits,takeVec_append keyFits,id,pool,
    takeU32_append indexFits,leValue_leBytes_of_lt (show poolId < 256 ^ 1 by simpa using poolFits)]

end KamuiVrf
