import KamuiVrf.Layout

namespace KamuiVrf

-- A `Uint8Array` such as a pooled Node `Buffer`: `length` bytes of its buffer from `byteOffset`.
structure ByteView where
  buffer : Bytes
  byteOffset : Nat
  length : Nat
  inside : byteOffset + length ≤ buffer.length

def ByteView.bytes (view : ByteView) : Bytes := slice view.buffer view.byteOffset (view.byteOffset + view.length)

-- `new DataView(view.buffer).getUint32(offset, true)` counts from the start of the buffer.
def ByteView.bufferUint32 (view : ByteView) (offset : Nat) : Except JsValue Nat := readUInt32LE view.buffer offset

def waitForFulfillmentStatus (data : ByteView) : Except JsValue (Option Nat) :=
  if data.length > 108 then do
    -- Skip: discriminator(8) + subscription(32) + seed(32) + requester(32) + callback_data_len(4) = 108
    let callbackLen ← data.bufferUint32 104
    let statusOffset := 108 + callbackLen + 8
    if statusOffset < data.length then pure (data.bytes[statusOffset]?.map UInt8.toNat) else pure none
  else pure none

def waitForFulfillmentOutput (data : ByteView) : Except JsValue (Option Bytes) :=
  if data.length > 12 then do
    let vecLen ← data.bufferUint32 8
    if vecLen > 0 ∧ data.length ≥ 12 + 64 then pure (some (slice data.bytes 12 (12 + 64))) else pure none
  else pure none

@[simp] theorem ByteView.length_bytes (view : ByteView) : view.bytes.length = view.length := by
  simp [ByteView.bytes,length_slice]
  have := view.inside
  omega

theorem ByteView.slice_buffer {view : ByteView} {start stop : Nat} (within : stop ≤ view.length) :
    slice view.buffer (view.byteOffset + start) (view.byteOffset + stop) = slice view.bytes start stop := by
  have := view.inside
  simp only [ByteView.bytes,slice,List.drop_take,List.take_take,List.drop_drop]
  rw [min_eq_left (by omega)]
  congr 1
  omega

theorem ByteView.bufferUint32_eq {view : ByteView} {offset : Nat} (within : offset + 4 ≤ view.buffer.length) :
    view.bufferUint32 offset = .ok (leValue (slice view.buffer offset (offset + 4))) := by
  simp [ByteView.bufferUint32,readUInt32LE,within]

theorem waitForFulfillmentStatus_eq (data : ByteView) :
    waitForFulfillmentStatus data =
      .ok (if 108 < data.length then data.bytes[116 + leValue (slice data.buffer 104 108)]?.map UInt8.toNat
        else none) := by
  have := data.inside
  unfold waitForFulfillmentStatus
  split_ifs with long
  · rw [ByteView.bufferUint32_eq (by omega),except_ok_bind,show 104 + 4 = 108 from rfl]
    dsimp only
    rw [show ∀ length, 108 + length + 8 = 116 + length from fun _ => by omega]
    split_ifs with fits
    · rfl
    · rw [List.getElem?_eq_none (by simp; omega)]
      rfl
  · rfl

theorem waitForFulfillmentStatus_of_byteOffset_zero (data : ByteView) (start : data.byteOffset = 0)
    (tagged : slice data.bytes 0 8 = requestDiscriminator) :
    waitForFulfillmentStatus data = readRequestStatus data.bytes := by
  rw [waitForFulfillmentStatus_eq,readRequestStatus_eq,if_pos tagged,callbackLength]
  congr 1
  split_ifs with long
  · have own := @ByteView.slice_buffer data 104 108 (by omega)
    simp only [start,Nat.zero_add] at own
    rw [own]
  · rw [List.getElem?_eq_none (by simp; omega)]
    rfl

set_option maxRecDepth 10000 in
theorem pooledView_statusDiverges :
    let record : Bytes := requestDiscriminator ++ List.replicate 88 0 ++ [1] ++ List.replicate 20 0 ++ [1]
    let view : ByteView := ⟨List.replicate 8 0 ++ record,8,record.length,by simp; omega⟩
    view.bytes = record ∧ slice view.bytes 0 8 = requestDiscriminator ∧
      readRequestStatus view.bytes = .ok (some 0) ∧ requestStatusPending view.bytes = .ok true ∧
      waitForFulfillmentStatus view = .ok (some 1) :=
  ⟨by decide,by decide,rfl,rfl,rfl⟩

end KamuiVrf
