import KamuiVrf.Node

namespace KamuiVrf

-- The RandomnessRequest account discriminator, as the scanner compares it.
def requestDiscriminatorHex : String := "f4e7e4a0941c11b8"
def requestDiscriminator : Bytes := [0xf4,0xe7,0xe4,0xa0,0x94,0x1c,0x11,0xb8]

-- `data.slice(0, 8).toString('hex')`
def discriminatorHex (data : Bytes) : String := toHex (slice data 0 8)

-- `callback_data`'s length prefix, at bytes 104..108.
def callbackLength (data : Bytes) : Nat := leValue (slice data 104 108)

-- What the scanner's status parse accepts: the tag, and a zero status byte inside the buffer.
def StatusPending (data : Bytes) : Prop :=
  slice data 0 8 = requestDiscriminator ∧ 117 + callbackLength data ≤ data.length ∧
    data[116 + callbackLength data]? = some 0

instance : DecidablePred StatusPending := fun _ => inferInstanceAs (Decidable (_ ∧ _ ∧ _))

-- The status byte `isRequestPending` reads inside its `try`, after the dedup check; `none`
-- where it answers false before reading one.
def readRequestStatus (data : Bytes) : Except JsValue (Option Nat) :=
  if discriminatorHex data ≠ requestDiscriminatorHex then .ok none else
  -- subscription (32) + seed (32) + requester (32) + callback_data (4 + len) + request_slot (8) + status (1)
  let offset := 8 + 32 + 32 + 32
  if data.length ≤ offset + 4 then .ok none else do
    let callbackDataLength ← readUInt32LE data offset
    let offset := offset + 4 + callbackDataLength + 8
    if data.length ≤ offset then return none
    let status ← readUInt8 data offset
    return some status

-- `status !== 0` answers false, and so does every early return.
def requestStatusPending (data : Bytes) : Except JsValue Bool := do
  let status ← readRequestStatus data
  return status == some 0

structure ParsedRequest where
  subscription : Bytes
  seed : Bytes
  requester : Bytes
  poolId : Nat
  requestIndex : Nat
  requestId : Bytes
deriving DecidableEq, Repr

-- The field reads of `processRequestAccount`, after its length and discriminator checks.
def parseRequestAccount (data : Bytes) : Except JsValue ParsedRequest := do
  let offset := 8
  let subscription := slice data offset (offset + 32)
  let offset := offset + 32
  let seed := slice data offset (offset + 32)
  let offset := offset + 32
  let requester := slice data offset (offset + 32)
  let offset := offset + 32
  let callbackDataLength ← readUInt32LE data offset
  -- callback_data, request_slot (8), status (1), num_words (4), callback_gas_limit (8)
  let offset := offset + 4 + callbackDataLength + 8 + 1 + 4 + 8
  let poolId ← readUInt8 data offset
  let offset := offset + 1
  let requestIndex ← readUInt32LE data offset
  let offset := offset + 4
  let requestId := slice data offset (offset + 32)
  pure ⟨subscription,seed,requester,poolId,requestIndex,requestId⟩

-- Reference decoder of the RandomnessRequest layout, from its field list: it
-- accepts exactly the buffers that hold every field up to `request_id`.
structure RandomnessRequest where
  tag : Bytes
  subscription : Bytes
  seed : Bytes
  requester : Bytes
  status : Nat
  poolId : Nat
  requestIndex : Nat
  requestId : Bytes
deriving DecidableEq, Repr

def decodeRandomnessRequest (data : Bytes) : Option RandomnessRequest :=
  let length := callbackLength data
  if 166 + length ≤ data.length then
    some ⟨slice data 0 8,slice data 8 40,slice data 40 72,slice data 72 104,(data[116 + length]?.getD 0).toNat,
      (data[129 + length]?.getD 0).toNat,leValue (slice data (130 + length) (134 + length)),
      slice data (134 + length) (166 + length)⟩
  else none

theorem discriminatorHex_eq_iff (data : Bytes) :
    discriminatorHex data = requestDiscriminatorHex ↔ slice data 0 8 = requestDiscriminator := by
  have tag : requestDiscriminatorHex = toHex requestDiscriminator := by decide
  rw [discriminatorHex,tag]
  exact ⟨toHex_injective,congrArg toHex⟩

theorem StatusPending.tagged {data : Bytes} (pending : StatusPending data) :
    discriminatorHex data = requestDiscriminatorHex :=
  (discriminatorHex_eq_iff data).mpr pending.1

theorem StatusPending.long {data : Bytes} (pending : StatusPending data) : 117 ≤ data.length := by
  have := pending.2.1
  omega

theorem readUInt32LE_of_le {data : Bytes} {offset : Nat} (inside : offset + 4 ≤ data.length) :
    readUInt32LE data offset = .ok (leValue (slice data offset (offset + 4))) := by
  simp [readUInt32LE,inside]

theorem readUInt8_of_lt {data : Bytes} {offset : Nat} (inside : offset < data.length) :
    readUInt8 data offset = .ok data[offset].toNat := by
  simp [readUInt8,List.getElem?_eq_getElem inside]

theorem uint8_toNat_eq_zero (b : UInt8) : b.toNat = 0 ↔ b = 0 :=
  ⟨fun zero => UInt8.toNat.inj zero,fun zero => zero ▸ rfl⟩

-- The server's status read never throws: on a tagged record it is the byte at `116 + L`,
-- where `L` is the record's own bytes 104..108.
theorem readRequestStatus_eq (data : Bytes) :
    readRequestStatus data =
      .ok (if slice data 0 8 = requestDiscriminator then data[116 + callbackLength data]?.map UInt8.toNat else none) := by
  unfold readRequestStatus
  by_cases tagged : slice data 0 8 = requestDiscriminator
  · have hex := (discriminatorHex_eq_iff data).mpr tagged
    by_cases short : data.length ≤ 8 + 32 + 32 + 32 + 4
    · simp [hex,short,tagged,List.getElem?_eq_none (show data.length ≤ 116 + callbackLength data by omega)]
    · simp only [hex,ne_eq,not_true_eq_false,if_false,short,readUInt32LE_of_le (show 104 + 4 ≤ data.length by omega),
        except_ok_bind,tagged,if_true]
      have index : 8 + 32 + 32 + 32 + 4 + callbackLength data + 8 = 116 + callbackLength data := by omega
      simp only [callbackLength] at index ⊢
      rw [index]
      by_cases fits : data.length ≤ 116 + leValue (slice data 104 108)
      · simp [fits,List.getElem?_eq_none fits]
      · have inside : 116 + leValue (slice data 104 108) < data.length := by omega
        simp [fits,readUInt8_of_lt inside,List.getElem?_eq_getElem inside]
  · have hex : discriminatorHex data ≠ requestDiscriminatorHex :=
      fun same => tagged ((discriminatorHex_eq_iff data).mp same)
    simp [hex,tagged]

-- The scanner's status parse never throws, and it accepts exactly the records
-- with the tag that hold a zero status byte at `116 + L`.
theorem requestStatusPending_eq (data : Bytes) : requestStatusPending data = .ok (decide (StatusPending data)) := by
  simp only [requestStatusPending,readRequestStatus_eq,except_ok_bind,StatusPending]
  congr 1
  by_cases tagged : slice data 0 8 = requestDiscriminator
  · by_cases zero : data[116 + callbackLength data]? = some 0
    · obtain ⟨inside,-⟩ := List.getElem?_eq_some_iff.mp zero
      simp [tagged,zero,show 117 + callbackLength data ≤ data.length by omega]
    · have nonzero : data[116 + callbackLength data]?.map UInt8.toNat ≠ some 0 := by
        intro mapped
        obtain ⟨b,found,isZero⟩ := Option.map_eq_some'.mp mapped
        exact zero (found.trans (congrArg some ((uint8_toNat_eq_zero b).mp isZero)))
      simp [tagged,zero,nonzero]
  · simp [tagged]

-- On a buffer that holds every field, the server's reads are the layout's fields.
theorem parseRequestAccount_eq {data : Bytes} (fits : 166 + callbackLength data ≤ data.length) :
    parseRequestAccount data = .ok ⟨slice data 8 40,slice data 40 72,slice data 72 104,
      (data[129 + callbackLength data]?.getD 0).toNat,
      leValue (slice data (130 + callbackLength data) (134 + callbackLength data)),
      slice data (134 + callbackLength data) (166 + callbackLength data)⟩ := by
  have pool : 129 + callbackLength data < data.length := by omega
  have poolAt : 8 + 32 + 32 + 32 + 4 + callbackLength data + 8 + 1 + 4 + 8 = 129 + callbackLength data := by omega
  have indexAt : 129 + callbackLength data + 1 = 130 + callbackLength data := by omega
  have idAt : 130 + callbackLength data + 4 = 134 + callbackLength data := by omega
  have idEnd : 134 + callbackLength data + 32 = 166 + callbackLength data := by omega
  simp only [parseRequestAccount,readUInt32LE_of_le (show 8 + 32 + 32 + 32 + 4 ≤ data.length by omega),
    except_ok_bind]
  simp only [callbackLength] at fits pool poolAt indexAt idAt idEnd ⊢
  rw [poolAt,readUInt8_of_lt pool,except_ok_bind,indexAt,readUInt32LE_of_le (by omega),except_ok_bind,idAt,idEnd,
    List.getElem?_eq_getElem pool]
  rfl

-- The fields of such a buffer are in the ranges the fulfillment payload's writes take.
theorem fullRecord_fields {data : Bytes} (fits : 166 + callbackLength data ≤ data.length) :
    (slice data (134 + callbackLength data) (166 + callbackLength data)).length = 32 ∧
      (data[129 + callbackLength data]?.getD 0).toNat < 256 ∧
      leValue (slice data (130 + callbackLength data) (134 + callbackLength data)) < 2 ^ 32 := by
  refine ⟨by rw [length_slice]; omega,UInt8.toNat_lt_size _,?_⟩
  have fits := leValue_slice_lt data (130 + callbackLength data) (134 + callbackLength data)
  rwa [Nat.add_sub_add_right] at fits

-- A parse that succeeds read the length prefix, so the buffer reaches byte 108.
theorem parseRequestAccount_ok {data : Bytes} {parsed : ParsedRequest} (parse : parseRequestAccount data = .ok parsed) :
    parsed.subscription = slice data 8 40 ∧ parsed.seed = slice data 40 72 ∧ 108 ≤ data.length := by
  obtain ⟨_,length,parse⟩ := except_bind_eq_ok.mp parse
  obtain ⟨_,-,parse⟩ := except_bind_eq_ok.mp parse
  obtain ⟨_,-,parse⟩ := except_bind_eq_ok.mp parse
  cases parse
  refine ⟨rfl,rfl,?_⟩
  unfold readUInt32LE at length
  split at length
  · omega
  · cases length

theorem decodeRandomnessRequest_eq {data : Bytes} (fits : 166 + callbackLength data ≤ data.length) :
    decodeRandomnessRequest data = some ⟨slice data 0 8,slice data 8 40,slice data 40 72,slice data 72 104,
      (data[116 + callbackLength data]?.getD 0).toNat,(data[129 + callbackLength data]?.getD 0).toNat,
      leValue (slice data (130 + callbackLength data) (134 + callbackLength data)),
      slice data (134 + callbackLength data) (166 + callbackLength data)⟩ := by
  simp only [decodeRandomnessRequest,fits,if_true]

theorem decodeRandomnessRequest_isSome (data : Bytes) :
    (decodeRandomnessRequest data).isSome ↔ 166 + callbackLength data ≤ data.length := by
  simp only [decodeRandomnessRequest]
  split <;> simp_all

end KamuiVrf
