import Mathlib.Data.List.Basic
import Mathlib.Tactic.Ring

namespace KamuiVrf

-- JavaScript values as far as the server's catch handlers look at them. Reading
-- `.message` throws only on `undefined` and `null`; no accessor runs user code.
inductive JsValue where
  | undefined
  | null
  | string (text : String)
  | error (name message : String)
  | object
deriving DecidableEq, Repr

def JsValue.isNullish : JsValue → Bool
  | .undefined => true
  | .null => true
  | _ => false

-- `error.message` on a nullish value: what V8 throws instead.
def readMessageError : JsValue :=
  .error "TypeError" "Cannot read properties of undefined (reading 'message')"

def rangeError : JsValue := .error "RangeError" "ERR_OUT_OF_RANGE"

@[simp] theorem readMessageError_isNullish : readMessageError.isNullish = false := rfl
@[simp] theorem rangeError_isNullish : rangeError.isNullish = false := rfl

-- A Node `Buffer` is its bytes; offsets and lengths are JS numbers, exact below 2^53.
abbrev Bytes := List UInt8

-- `buf.slice(start, end)` clamps both ends to the buffer.
def slice (data : Bytes) (start stop : Nat) : Bytes := (data.drop start).take (stop - start)

def alloc (size : Nat) : Bytes := List.replicate size 0

-- Little-endian words: `width` bytes of `value`, least significant first.
def leBytes : Nat → Nat → Bytes
  | 0, _ => []
  | width + 1, value => UInt8.ofNat (value % 256) :: leBytes width (value / 256)

def leValue : Bytes → Nat
  | [] => 0
  | b :: rest => b.toNat + 256 * leValue rest

def readUInt8 (data : Bytes) (offset : Nat) : Except JsValue Nat :=
  match data[offset]? with
  | some b => .ok b.toNat
  | none => .error rangeError

-- Node checks `buf[offset]` and `buf[offset + 3]` before reading.
def readUInt32LE (data : Bytes) (offset : Nat) : Except JsValue Nat :=
  if offset + 4 ≤ data.length then .ok (leValue (slice data offset (offset + 4)))
  else .error rangeError

-- `source.copy(target, targetStart)` copies as many bytes as fit after `targetStart`.
def copyInto (source target : Bytes) (targetStart : Nat) : Bytes :=
  let count := min source.length (target.length - targetStart)
  target.take targetStart ++ source.take count ++ target.drop (targetStart + count)

-- `checkInt` rejects the value first, then `checkBounds` the offset.
def writeUInt (width : Nat) (buf : Bytes) (value offset : Nat) : Except JsValue Bytes :=
  if value < 256 ^ width then
    if offset + width ≤ buf.length then .ok (copyInto (leBytes width value) buf offset)
    else .error rangeError
  else .error rangeError

def writeUInt8 (buf : Bytes) (value offset : Nat) : Except JsValue Bytes := writeUInt 1 buf value offset
def writeUInt32LE (buf : Bytes) (value offset : Nat) : Except JsValue Bytes := writeUInt 4 buf value offset

def hexDigit (n : Nat) : Char := if n < 10 then Char.ofNat (48 + n) else Char.ofNat (87 + n)

def hexByte (b : UInt8) : List Char := [hexDigit (b.toNat / 16),hexDigit (b.toNat % 16)]

-- `buf.toString('hex')`: two lowercase digits a byte.
def toHex (data : Bytes) : String := String.mk (data.flatMap hexByte)

def hexValue (c : Char) : Option Nat :=
  if '0' ≤ c ∧ c ≤ '9' then some (c.toNat - 48)
  else if 'a' ≤ c ∧ c ≤ 'f' then some (c.toNat - 87)
  else if 'A' ≤ c ∧ c ≤ 'F' then some (c.toNat - 55)
  else none

-- `Buffer.from(text, 'hex')` stops at the first pair that is not two hex digits
-- and drops an odd trailing digit.
def hexPairs : List Char → Bytes
  | a :: b :: rest =>
    match hexValue a,hexValue b with
    | some high,some low => UInt8.ofNat (16 * high + low) :: hexPairs rest
    | _,_ => []
  | _ => []

def fromHex (text : String) : Bytes := hexPairs text.toList

@[simp] theorem except_ok_bind (value : α) (next : α → Except ε β) : (Except.ok value >>= next) = next value := rfl
@[simp] theorem except_error_bind (error : ε) (next : α → Except ε β) :
    (Except.error error >>= next : Except ε β) = .error error := rfl
@[simp] theorem except_pure (value : α) : (pure value : Except ε α) = .ok value := rfl

theorem except_bind_eq_ok {first : Except ε α} {next : α → Except ε β} {result : β} :
    (first >>= next) = .ok result ↔ ∃ value, first = .ok value ∧ next value = .ok result := by
  cases first <;> simp
@[simp] theorem except_map_ok (change : α → β) (value : α) :
    (change <$> (Except.ok value : Except ε α)) = .ok (change value) := rfl
@[simp] theorem except_map_error (change : α → β) (error : ε) :
    (change <$> (Except.error error : Except ε α)) = .error error := rfl

@[simp] theorem length_alloc (size : Nat) : (alloc size).length = size := List.length_replicate _ _

@[simp] theorem length_leBytes (width value : Nat) : (leBytes width value).length = width := by
  induction width generalizing value with
  | zero => rfl
  | succ width ih => simp [leBytes,ih]

theorem leValue_lt (data : Bytes) : leValue data < 256 ^ data.length := by
  induction data with
  | nil => simp [leValue]
  | cons b rest ih =>
    have small : b.toNat < 256 := b.toNat_lt_size
    simp only [leValue,List.length_cons,pow_succ]
    omega

theorem leValue_leBytes (width value : Nat) : leValue (leBytes width value) = value % 256 ^ width := by
  induction width generalizing value with
  | zero => simp [leBytes,leValue,Nat.mod_one]
  | succ width ih =>
    have byte : (UInt8.ofNat (value % 256)).toNat = value % 256 :=
      UInt8.toNat_ofNat_of_lt (Nat.mod_lt _ (by decide))
    simp only [leBytes,leValue,ih,byte,pow_succ']
    rw [Nat.mod_mul,Nat.mul_comm 256]

theorem leValue_leBytes_of_lt {width value : Nat} (fits : value < 256 ^ width) :
    leValue (leBytes width value) = value := by
  rw [leValue_leBytes,Nat.mod_eq_of_lt fits]

theorem leValue_append (first second : Bytes) :
    leValue (first ++ second) = leValue first + 256 ^ first.length * leValue second := by
  induction first with
  | nil => simp [leValue]
  | cons b rest ih => rw [List.cons_append,leValue,leValue,ih,List.length_cons]; ring

theorem slice_append_left (first second : Bytes) (start stop : Nat) (inside : stop ≤ first.length) :
    slice (first ++ second) start stop = slice first start stop := by
  simp only [slice,List.drop_append_eq_append_drop]
  rw [List.take_append_of_le_length (by simp only [List.length_drop]; omega)]

theorem slice_append_right (first second : Bytes) (start stop : Nat) :
    slice (first ++ second) (first.length + start) (first.length + stop) = slice second start stop := by
  simp [slice,List.drop_append_of_le_length,Nat.add_sub_add_left]

theorem length_slice (data : Bytes) (start stop : Nat) :
    (slice data start stop).length = min (stop - start) (data.length - start) := by
  simp only [slice,List.length_drop,List.length_take]

theorem leValue_slice_lt (data : Bytes) (start stop : Nat) : leValue (slice data start stop) < 256 ^ (stop - start) :=
  lt_of_lt_of_le (leValue_lt _) (Nat.pow_le_pow_right (by decide) (by rw [length_slice]; omega))

theorem hexDigit_injective : ∀ high low : Fin 16, hexDigit high = hexDigit low → high = low := by decide

theorem hexByte_injective {a b : UInt8} (same : hexByte a = hexByte b) : a = b := by
  have digits : a.toNat < 256 ∧ b.toNat < 256 := ⟨a.toNat_lt_size,b.toNat_lt_size⟩
  simp only [hexByte,List.cons.injEq,and_true] at same
  have high := hexDigit_injective ⟨a.toNat / 16,by omega⟩ ⟨b.toNat / 16,by omega⟩ same.1
  have low := hexDigit_injective ⟨a.toNat % 16,by omega⟩ ⟨b.toNat % 16,by omega⟩ same.2
  simp only [Fin.mk.injEq] at high low
  exact UInt8.toNat.inj (by omega)

theorem flatMap_hexByte_injective {a b : Bytes} (chars : a.flatMap hexByte = b.flatMap hexByte) : a = b := by
  induction a generalizing b with
  | nil => cases b <;> simp_all [hexByte]
  | cons x xs ih =>
    cases b with
    | nil => simp [hexByte] at chars
    | cons y ys =>
      simp only [List.flatMap_cons,hexByte,List.cons_append,List.nil_append,List.cons.injEq] at chars
      have byte : x = y := hexByte_injective (by simp [hexByte,chars.1,chars.2.1])
      rw [byte,ih chars.2.2]

theorem toHex_injective {a b : Bytes} (same : toHex a = toHex b) : a = b :=
  flatMap_hexByte_injective (congrArg String.data same)

theorem hexDigit_mem : ∀ n : Fin 16, hexDigit n ∈ "0123456789abcdef".toList := by decide

-- `toString('hex')` writes only lowercase hex digits.
theorem mem_toHex {data : Bytes} {c : Char} (inside : c ∈ (toHex data).toList) : c ∈ "0123456789abcdef".toList := by
  obtain ⟨b,-,digit⟩ := List.mem_flatMap.mp inside
  have byte : b.toNat < 256 := b.toNat_lt_size
  simp only [hexByte,List.mem_cons,List.mem_singleton,List.not_mem_nil,or_false] at digit
  rcases digit with rfl | rfl
  exacts [hexDigit_mem ⟨b.toNat / 16,by omega⟩,hexDigit_mem ⟨b.toNat % 16,by omega⟩]

end KamuiVrf
