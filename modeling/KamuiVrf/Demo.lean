import Mathlib.Data.Nat.Digits
import KamuiVrf.Codec
import KamuiVrf.Serialize
import KamuiVrf.Ui

namespace KamuiVrf

-- `VRFDemo`: `requestRandomness`, `waitForFulfillment`, `cancelRequest` and the result panel.

/-! ## State -/

inductive RequestStatus where
  | idle
  | submitting
  | waiting
  | fulfilled
  | timeout
  | error
deriving DecidableEq, Repr

-- `const isLoading = status === 'submitting' || status === 'waiting';`
def RequestStatus.isLoading : RequestStatus → Bool
  | .submitting => true
  | .waiting => true
  | _ => false

def vrfTimeoutMs : Nat := 60000

def pollIntervalMs : Nat := 2000

structure Demo where
  status : RequestStatus
  result : Option String
  error : Option String
  timeRemaining : Nat
  abort : Bool
deriving DecidableEq, Repr

def Demo.initial : Demo := ⟨.idle,none,none,0,false⟩

def Demo.fail (demo : Demo) (message : String) : Demo := { demo with status := .error, error := some message }

def Demo.timedOut (demo : Demo) : Demo :=
  { demo with status := .timeout, error := some "VRF fulfillment timed out. Make sure the VRF server is running." }

-- `if (vrfResult)` after `waitForFulfillment` returns: a nonempty string is a result.
def Demo.settle (demo : Demo) (vrfResult : Option String) : Demo :=
  match vrfResult with
  | some text => if text.isEmpty then demo.timedOut else { demo with status := .fulfilled, result := some text }
  | none => demo.timedOut

-- The catch block of `requestRandomness`: an `Error`'s message, an object's JSON.
def errorMessage (stringify : JsValue → String) : JsValue → String
  | .error _ message => message
  | .object => stringify .object
  | _ => "An error occurred"

/-! ## The hex of the random output and the result panel -/

-- `b.toString(16).padStart(2, '0')`
def byteHex (b : UInt8) : List Char :=
  let digits := Nat.toDigits 16 b.toNat
  List.replicate (2 - digits.length) '0' ++ digits

-- `Array.from(randomOutput).map(b => b.toString(16).padStart(2, '0')).join('')`
def hexOf (randomOutput : Bytes) : String := String.mk (randomOutput.flatMap byteHex)

def bigIntSyntaxError : JsValue := .error "SyntaxError" "Cannot convert to BigInt"

-- `BigInt('0x' + digits)`: hex digits, then only whitespace, or a `SyntaxError`.
def bigIntOfHex (digits : List Char) : Except JsValue Nat :=
  match (digits.reverse.dropWhile isJsSpace).reverse.mapM hexValue with
  | some [] => .error bigIntSyntaxError
  | some values => .ok (values.foldl (fun value digit => 16 * value + digit) 0)
  | none => .error bigIntSyntaxError

def maxU64 : Nat := 18446744073709551615

structure Rendered where
  humanNumber : Nat
  percentage : Nat
  diceRoll : Nat
  coinFlip : String
deriving DecidableEq, Repr

def renderResult (fullHex : String) : Except JsValue Rendered := do
  let bigIntValue ← bigIntOfHex (fullHex.toList.take 16)
  pure ⟨bigIntValue % 1000000 + 1,bigIntValue * 10000 / maxU64,bigIntValue % 6 + 1,
    if bigIntValue % 2 = 0 then "Heads" else "Tails"⟩

/-! ## The calls of `requestRandomness` -/

-- Where a call of `requestRandomness` waits; `round` counts the loop's turns (a ghost counter),
-- and a timer's `deadline` is on the clock `setTimeout` runs on.
inductive Await where
  | digest (seed : Bytes)
  | latestBlockhash (instructions : List Bytes)
  | send (instructions : List Bytes)
  | confirm
  | resultAccount (startTime round : Nat)
  | requestAccount (startTime round : Nat)
  | resultAccountAgain (startTime round : Nat)
  | timer (startTime round deadline : Nat)
deriving DecidableEq, Repr

def Await.Outcome : Await → Type
  | .digest _ => Except JsValue Unit
  | .latestBlockhash _ => Except JsValue Unit
  | .send _ => Except JsValue Unit
  | .confirm => Except JsValue (Option JsValue)
  | .resultAccount .. => Except JsValue (Option ByteView)
  | .requestAccount .. => Except JsValue (Option ByteView)
  | .resultAccountAgain .. => Except JsValue (Option ByteView)
  | .timer .. => Empty

def instructionData (seed : Bytes) : Except JsValue (List Bytes) := do
  let createSubscription ← createSubscriptionData
  let fund ← fundData
  let initPool ← initPoolData
  let request ← requestData seed
  pure [createSubscription,fund,initPool,request]

-- `requestRandomness` up to its first `await`, with `generateRandomBytes(32)` as `seed`.
def startRequest (wallet : Option Bytes) (seed : Bytes) (demo : Demo) : Demo × Option Await :=
  match wallet with
  | none => ({ demo with error := some "Please connect your wallet first" },none)
  | some _ => ({ demo with status := .submitting, error := none, result := none, abort := false },some (.digest seed))

-- The head of the `while (!abortRef.current)` loop when `Date.now()` reads `now`.
def loopHead (now startTime round : Nat) (demo : Demo) : Demo × Option Await :=
  if demo.abort then (demo.settle none,none)
  else
    let elapsed : Int := now - startTime
    let remaining := max 0 (vrfTimeoutMs - elapsed)
    let demo := { demo with timeRemaining := ((remaining + 999) / 1000).toNat }
    if elapsed ≥ vrfTimeoutMs then (demo.settle none,none)
    else (demo,some (.resultAccount startTime round))

def pollAgain (uptime startTime round : Nat) : Option Await := some (.timer startTime round (uptime + pollIntervalMs))

def resume (stringify : JsValue → String) (now uptime : Nat) (demo : Demo) :
    (await : Await) → await.Outcome → Demo × Option Await
  | .digest _,.error error => (demo.fail (errorMessage stringify error),none)
  | .digest seed,.ok () =>
    match instructionData seed with
    | .ok instructions => (demo,some (.latestBlockhash instructions))
    | .error error => (demo.fail (errorMessage stringify error),none)
  | .latestBlockhash _,.error error => (demo.fail (errorMessage stringify error),none)
  | .latestBlockhash instructions,.ok () => (demo,some (.send instructions))
  | .send _,.error error => (demo.fail (errorMessage stringify error),none)
  | .send _,.ok () => (demo,some .confirm)
  | .confirm,.error error => (demo.fail (errorMessage stringify error),none)
  | .confirm,.ok (some err) => (demo.fail ("Transaction failed: " ++ stringify err),none)
  | .confirm,.ok none =>
    loopHead now now 0 { demo with status := .waiting, timeRemaining := vrfTimeoutMs / 1000, abort := false }
  | .resultAccount startTime round,.ok (some data) =>
    match waitForFulfillmentOutput data with
    | .ok (some randomOutput) => (demo.settle (some (hexOf randomOutput)),none)
    | .ok none => (demo,some (.requestAccount startTime round))
    | .error _ => (demo,pollAgain uptime startTime round)
  | .resultAccount startTime round,.ok none => (demo,some (.requestAccount startTime round))
  | .resultAccount startTime round,.error _ => (demo,pollAgain uptime startTime round)
  | .requestAccount startTime round,.ok (some data) =>
    match waitForFulfillmentStatus data with
    | .ok (some 1) => (demo,some (.resultAccountAgain startTime round))
    | _ => (demo,pollAgain uptime startTime round)
  | .requestAccount startTime round,_ => (demo,pollAgain uptime startTime round)
  | .resultAccountAgain startTime round,.ok (some data) =>
    if 12 + 64 ≤ data.length then (demo.settle (some (hexOf (slice data.bytes 12 (12 + 64)))),none)
    else (demo,pollAgain uptime startTime round)
  | .resultAccountAgain startTime round,_ => (demo,pollAgain uptime startTime round)
  | .timer ..,outcome => nomatch outcome

/-! ## The component over time -/

-- `now` is `Date.now()`, and `uptime` the elapsed time the timers run on.
structure Ui where
  demo : Demo
  now : Nat
  uptime : Nat
  wallet : Option Bytes
  pending : List Await

def Ui.start (ui : Ui) (seed : Bytes) : Ui :=
  let segment := startRequest ui.wallet seed ui.demo
  { ui with demo := segment.1, pending := ui.pending ++ segment.2.toList }

def Ui.continue (ui : Ui) (index : Nat) (segment : Demo × Option Await) : Ui :=
  { ui with
    demo := segment.1
    pending := match segment.2 with
      | some next => ui.pending.set index next
      | none => ui.pending.eraseIdx index }

-- Both clocks advance, the system clock is set as `adjusts` allows, or the user or a call acts.
inductive UiStep (stringify : JsValue → String) (adjusts : Nat → Nat → Prop) : Ui → Ui → Prop
  | tick {ui : Ui} (elapsed : Nat) :
      UiStep stringify adjusts ui { ui with now := ui.now + elapsed, uptime := ui.uptime + elapsed }
  | adjust {ui : Ui} {clock : Nat} (allowed : adjusts ui.now clock) : UiStep stringify adjusts ui { ui with now := clock }
  | connect {ui : Ui} (wallet : Option Bytes) : UiStep stringify adjusts ui { ui with wallet := wallet }
  | click {ui : Ui} {seed : Bytes} (enabled : ui.demo.status.isLoading = false) (connected : ui.wallet.isSome)
      (random : seed.length = 32) :
      UiStep stringify adjusts ui (ui.start seed)
  | cancel {ui : Ui} (shown : ui.demo.status = .waiting) :
      UiStep stringify adjusts ui { ui with demo := { ui.demo with abort := true, status := .idle } }
  | answer {ui : Ui} {index : Nat} {await : Await} (pending : ui.pending[index]? = some await) (outcome : await.Outcome) :
      UiStep stringify adjusts ui (ui.continue index (resume stringify ui.now ui.uptime ui.demo await outcome))
  | fire {ui : Ui} {index startTime round deadline : Nat}
      (pending : ui.pending[index]? = some (.timer startTime round deadline)) (due : deadline ≤ ui.uptime) :
      UiStep stringify adjusts ui (ui.continue index (loopHead ui.now startTime (round + 1) ui.demo))

inductive UiReachable (stringify : JsValue → String) (adjusts : Nat → Nat → Prop) : Ui → Prop
  | initial (now uptime : Nat) (wallet : Option Bytes) : UiReachable stringify adjusts ⟨Demo.initial,now,uptime,wallet,[]⟩
  | step {ui next : Ui} : UiReachable stringify adjusts ui → UiStep stringify adjusts ui next →
      UiReachable stringify adjusts next

/-! ## The hex of the random output -/

theorem digitChar_hex : ∀ k < 16, Nat.digitChar k = hexDigit k := by decide

theorem toDigits_byte {n : Nat} (byte : n < 256) :
    Nat.toDigits 16 n = if n / 16 = 0 then [hexDigit (n % 16)] else [hexDigit (n / 16),hexDigit (n % 16)] := by
  have low := digitChar_hex (n % 16) (Nat.mod_lt n (by decide))
  simp only [Nat.toDigits,Nat.toDigitsCore,low]
  split_ifs with small
  · rfl
  · obtain ⟨m,rfl⟩ : ∃ m, n = m + 1 := ⟨n - 1,by omega⟩
    have high : (m + 1) / 16 % 16 = (m + 1) / 16 := Nat.mod_eq_of_lt (by omega)
    simp only [Nat.toDigitsCore,high,digitChar_hex _ (by omega : (m + 1) / 16 < 16),
      show (m + 1) / 16 / 16 = 0 by omega,if_true]

theorem byteHex_digits {n : Nat} (byte : n < 256) :
    List.replicate (2 - (Nat.toDigits 16 n).length) '0' ++ Nat.toDigits 16 n = [hexDigit (n / 16),hexDigit (n % 16)] := by
  rw [toDigits_byte byte]
  split_ifs with small
  · rw [small]
    rfl
  · rfl

-- The demo's `toString(16).padStart(2, '0')` writes the digits of `toString('hex')`.
theorem hexOf_eq (randomOutput : Bytes) : hexOf randomOutput = toHex randomOutput :=
  congrArg String.mk (congrArg randomOutput.flatMap (funext fun b => byteHex_digits b.toNat_lt_size))

theorem waitForFulfillmentOutput_length {data : ByteView} {randomOutput : Bytes}
    (read : waitForFulfillmentOutput data = .ok (some randomOutput)) : randomOutput.length = 64 := by
  unfold waitForFulfillmentOutput at read
  split_ifs at read with long
  · cases word : data.bufferUint32 8 with
    | error error => simp [word] at read
    | ok vecLen =>
      simp only [word,except_ok_bind] at read
      split_ifs at read with filled
      · cases read
        simp [length_slice]
        omega
      · cases read
  · cases read

/-! ## The result panel -/

theorem foldl_horner (digits : List Nat) (value : Nat) :
    digits.foldl (fun value digit => 16 * value + digit) value =
      value * 16 ^ digits.length + Nat.ofDigits 16 digits.reverse := by
  induction digits generalizing value with
  | nil => simp
  | cons digit rest ih =>
    rw [List.foldl_cons,ih,List.reverse_cons,Nat.ofDigits_append,List.length_reverse,Nat.ofDigits_singleton,
      List.length_cons,pow_succ]
    ring

theorem hexValue_of_mem {c : Char} (digit : c ∈ "0123456789abcdef".toList) : ∃ n < 16, hexValue c = some n := by
  rw [hexDigits_eq] at digit
  obtain ⟨n,small,rfl⟩ := List.mem_map.mp digit
  exact ⟨n,List.mem_range.mp small,hexValue_hexDigit n (List.mem_range.mp small)⟩

theorem mapM_hexValue : ∀ text : List Char, (∀ c ∈ text, c ∈ "0123456789abcdef".toList) →
    ∃ values : List Nat, text.mapM hexValue = some values ∧ values.length = text.length ∧ ∀ d ∈ values, d < 16
  | [],_ => ⟨[],rfl,rfl,fun _ absent => absurd absent (List.not_mem_nil _)⟩
  | c :: rest,digits => by
    obtain ⟨n,small,value⟩ := hexValue_of_mem (digits c (List.mem_cons_self c rest))
    obtain ⟨values,mapped,sized,bounded⟩ := mapM_hexValue rest fun d inside => digits d (List.mem_cons_of_mem c inside)
    refine ⟨n :: values,by rw [List.mapM_cons,value,mapped]; rfl,by simp [sized],fun d inside => ?_⟩
    rcases List.mem_cons.mp inside with rfl | later
    exacts [small,bounded d later]

theorem trimEnd_hexText {text : List Char} (digits : ∀ c ∈ text, c ∈ "0123456789abcdef".toList) :
    (text.reverse.dropWhile isJsSpace).reverse = text := by
  cases last : text.reverse with
  | nil => simp [List.reverse_eq_nil_iff.mp last]
  | cons c rest =>
    have inside : c ∈ text := List.mem_reverse.mp (last ▸ List.mem_cons_self c rest)
    rw [List.dropWhile_cons_of_neg (by simp [(hexChars_plain c (digits c inside)).1]),← last,List.reverse_reverse]

theorem bigIntOfHex_hexText {text : List Char} (digits : ∀ c ∈ text, c ∈ "0123456789abcdef".toList)
    (nonempty : text ≠ []) : ∃ value, bigIntOfHex text = .ok value ∧ value < 16 ^ text.length := by
  obtain ⟨values,mapped,sized,bounded⟩ := mapM_hexValue text digits
  cases values with
  | nil => exact absurd (List.length_eq_zero.mp sized.symm) nonempty
  | cons d rest =>
    refine ⟨_,by rw [bigIntOfHex,trimEnd_hexText digits,mapped],?_⟩
    rw [foldl_horner,← sized,Nat.zero_mul,Nat.zero_add,← List.length_reverse]
    exact Nat.ofDigits_lt_base_pow_length (by norm_num) fun x inside => bounded x (List.mem_reverse.mp inside)

theorem take_toHex (data : Bytes) (count : Nat) (long : count ≤ data.length) :
    (toHex data).toList.take (2 * count) = (toHex (data.take count)).toList := by
  have whole : (toHex data).toList = (data.take count).flatMap hexByte ++ (data.drop count).flatMap hexByte := by
    rw [← List.flatMap_append,List.take_append_drop]
    rfl
  rw [whole,List.take_left' (by rw [length_flatMap_hexByte,List.length_take]; omega)]
  rfl

-- `BigInt` of the first 16 hex digits is at most `maxU64`, so each number is in range.
theorem renderResult_hex {randomOutput : Bytes} (sized : randomOutput.length = 64) :
    ∃ rendered, renderResult (toHex randomOutput) = .ok rendered ∧ 1 ≤ rendered.humanNumber ∧
      rendered.humanNumber ≤ 1000000 ∧ rendered.percentage ≤ 10000 ∧ 1 ≤ rendered.diceRoll ∧ rendered.diceRoll ≤ 6 := by
  have first : (toHex randomOutput).toList.take 16 = (toHex (randomOutput.take 8)).toList :=
    take_toHex randomOutput 8 (by omega)
  have eight : (randomOutput.take 8).length = 8 := by simp [sized]
  obtain ⟨value,read,small⟩ := bigIntOfHex_hexText (fun _ inside => mem_toHex inside)
    (toHex_ne_nil (List.ne_nil_of_length_pos (show 0 < (randomOutput.take 8).length by omega)))
  have below : value ≤ maxU64 := by
    rw [show (toHex (randomOutput.take 8)).toList.length = 16 from (length_flatMap_hexByte _).trans (by rw [eight])]
      at small
    simp only [maxU64]
    omega
  refine ⟨_,by rw [renderResult,first,read]; rfl,?_⟩
  dsimp only
  refine ⟨by omega,by omega,Nat.div_le_of_le_mul ?_,by omega,by omega⟩
  simp only [maxU64] at below ⊢
  omega

/-! ## What a segment of a call can do -/

def Await.turn : Await → Option (Nat × Nat)
  | .resultAccount startTime round => some (startTime,round)
  | .requestAccount startTime round => some (startTime,round)
  | .resultAccountAgain startTime round => some (startTime,round)
  | .timer startTime round _ => some (startTime,round)
  | _ => none

-- What one segment of a call can do; `resume` stays inside it (`resume_resumes`).
inductive Resumes (now uptime : Nat) (demo : Demo) : Await → Demo × Option Await → Prop
  | fail {await : Await} (message : String) : Resumes now uptime demo await (demo.fail message,none)
  | build {seed : Bytes} {instructions : List Bytes} (built : instructionData seed = .ok instructions) :
      Resumes now uptime demo (.digest seed) (demo,some (.latestBlockhash instructions))
  | sign {instructions : List Bytes} :
      Resumes now uptime demo (.latestBlockhash instructions) (demo,some (.send instructions))
  | sent {instructions : List Bytes} : Resumes now uptime demo (.send instructions) (demo,some .confirm)
  | confirmed : Resumes now uptime demo .confirm
      (loopHead now now 0 { demo with status := .waiting, timeRemaining := vrfTimeoutMs / 1000, abort := false })
  | read {await : Await} {randomOutput : Bytes} (sized : randomOutput.length = 64) :
      Resumes now uptime demo await (demo.settle (some (hexOf randomOutput)),none)
  | request {startTime round : Nat} :
      Resumes now uptime demo (.resultAccount startTime round) (demo,some (.requestAccount startTime round))
  | again {startTime round : Nat} :
      Resumes now uptime demo (.requestAccount startTime round) (demo,some (.resultAccountAgain startTime round))
  | poll {await : Await} {startTime round : Nat} (polling : await.turn = some (startTime,round)) :
      Resumes now uptime demo await (demo,pollAgain uptime startTime round)

theorem resume_resumes (stringify : JsValue → String) (now uptime : Nat) (demo : Demo) :
    ∀ (await : Await) (outcome : await.Outcome), Resumes now uptime demo await (resume stringify now uptime demo await outcome)
  | .digest _,.error _ | .latestBlockhash _,.error _ | .send _,.error _ | .confirm,.error _ | .confirm,.ok (some _) =>
    .fail _
  | .digest seed,.ok () => by
    simp only [resume]
    split
    · next built => exact .build built
    · exact .fail _
  | .latestBlockhash _,.ok () => .sign
  | .send _,.ok () => .sent
  | .confirm,.ok none => .confirmed
  | .resultAccount _ _,.ok (some data) => by
    simp only [resume]
    split
    · next read => exact .read (waitForFulfillmentOutput_length read)
    · exact .request
    · exact .poll rfl
  | .resultAccount _ _,.ok none => .request
  | .requestAccount _ _,.ok (some data) => by
    simp only [resume]
    split
    exacts [.again,.poll rfl]
  | .resultAccountAgain _ _,.ok (some data) => by
    simp only [resume]
    split
    · next long => exact .read (by simp only [length_slice,ByteView.length_bytes]; omega)
    · exact .poll rfl
  | .resultAccount _ _,.error _ | .requestAccount _ _,.ok none | .requestAccount _ _,.error _
  | .resultAccountAgain _ _,.ok none | .resultAccountAgain _ _,.error _ => .poll rfl
  | .timer ..,outcome => nomatch outcome

/-! ## What every run keeps -/

def Demo.Shown (demo : Demo) : Prop :=
  (∀ text ∈ demo.result, ∃ randomOutput : Bytes, randomOutput.length = 64 ∧ text = toHex randomOutput) ∧
    (demo.status = .fulfilled → demo.result.isSome)

def Carries (instructions : List Bytes) : Prop :=
  ∃ seed data, seed.length = 32 ∧ instructionData seed = .ok instructions ∧ instructions[3]? = some data ∧
    decodeRequestRandomness data = some (⟨requestRandomnessDiscriminator,seed,[],1,1,100000,0⟩,[])

def Await.Sound : Await → Prop
  | .digest seed => seed.length = 32
  | .latestBlockhash instructions => Carries instructions
  | .send instructions => Carries instructions
  | _ => True

structure Ui.Sound (ui : Ui) : Prop where
  shown : ui.demo.Shown
  pending : ∀ await ∈ ui.pending, await.Sound
  live : ui.demo.status.isLoading = true → ui.pending ≠ []

structure SegmentSound (segment : Demo × Option Await) : Prop where
  shown : segment.1.Shown
  next : ∀ next ∈ segment.2, next.Sound
  ends : segment.2 = none → segment.1.status.isLoading = false

theorem Demo.Shown.fail {demo : Demo} (shown : demo.Shown) (message : String) : (demo.fail message).Shown :=
  ⟨shown.1,fun same => RequestStatus.noConfusion same⟩

theorem Demo.Shown.timedOut {demo : Demo} (shown : demo.Shown) : demo.timedOut.Shown :=
  ⟨shown.1,fun same => RequestStatus.noConfusion same⟩

theorem Demo.Shown.countdown {demo : Demo} (shown : demo.Shown) (seconds : Nat) :
    { demo with timeRemaining := seconds }.Shown :=
  shown

theorem Demo.Shown.settle {demo : Demo} (shown : demo.Shown) {vrfResult : Option String}
    (read : ∀ text ∈ vrfResult, ∃ randomOutput : Bytes, randomOutput.length = 64 ∧ text = toHex randomOutput) :
    (demo.settle vrfResult).Shown := by
  cases vrfResult with
  | none => exact shown.timedOut
  | some text =>
    by_cases empty : text.isEmpty = true
    · rw [Demo.settle,if_pos empty]
      exact shown.timedOut
    · rw [Demo.settle,if_neg empty]
      exact ⟨fun _ same => Option.some.inj same ▸ read text rfl,fun _ => rfl⟩

theorem Demo.settle_settled (demo : Demo) (vrfResult : Option String) :
    (demo.settle vrfResult).status.isLoading = false ∧ (demo.settle vrfResult).timeRemaining = demo.timeRemaining := by
  unfold Demo.settle
  split
  · split <;> exact ⟨rfl,rfl⟩
  · exact ⟨rfl,rfl⟩

theorem SegmentSound.keep {demo : Demo} (shown : demo.Shown) {next : Await} (sound : next.Sound) :
    SegmentSound (demo,some next) :=
  ⟨shown,by rintro _ ⟨⟩; exact sound,fun ended => Option.noConfusion ended⟩

theorem SegmentSound.timedOut {demo : Demo} (shown : demo.Shown) : SegmentSound (demo.settle none,none) :=
  ⟨shown.timedOut,nofun,fun _ => rfl⟩

theorem SegmentSound.fail {demo : Demo} (shown : demo.Shown) (message : String) :
    SegmentSound (demo.fail message,none) :=
  ⟨shown.fail message,nofun,fun _ => rfl⟩

theorem settle_hexOf {demo : Demo} (shown : demo.Shown) {randomOutput : Bytes} (sized : randomOutput.length = 64) :
    SegmentSound (demo.settle (some (hexOf randomOutput)),none) :=
  ⟨shown.settle fun _ same => ⟨randomOutput,sized,(Option.some.inj same).symm.trans (hexOf_eq randomOutput)⟩,
    nofun,fun _ => (demo.settle_settled _).1⟩

theorem loopHead_sound {now startTime round : Nat} {demo : Demo} (shown : demo.Shown) :
    SegmentSound (loopHead now startTime round demo) := by
  unfold loopHead
  dsimp only
  split_ifs
  · exact .timedOut shown
  · exact .timedOut shown
  · exact .keep (shown.countdown _) (show Await.Sound (.resultAccount startTime round) from trivial)

theorem instructionData_carries {seed : Bytes} (sized : seed.length = 32) {instructions : List Bytes}
    (built : instructionData seed = .ok instructions) : Carries instructions := by
  obtain ⟨data,request,-,decoded⟩ := requestData_decodes sized
  refine ⟨seed,data,sized,built,?_,decoded⟩
  cases subscription : createSubscriptionData <;> cases fund : fundData <;> cases pool : initPoolData <;>
    simp [instructionData,subscription,fund,pool,request] at built
  subst built
  rfl

theorem Resumes.sound {now uptime : Nat} {demo : Demo} {await : Await} {segment : Demo × Option Await}
    (resumes : Resumes now uptime demo await segment) (shown : demo.Shown) (sound : await.Sound) :
    SegmentSound segment := by
  cases resumes with
  | fail message => exact .fail shown message
  | build built => exact .keep shown (instructionData_carries sound built)
  | sign => exact .keep shown sound
  | confirmed => exact loopHead_sound ⟨shown.1,fun waiting => RequestStatus.noConfusion waiting⟩
  | read sized => exact settle_hexOf shown sized
  | sent | request | again | poll => exact .keep shown trivial

theorem Ui.mem_continue {ui : Ui} {index : Nat} {segment : Demo × Option Await} {await : Await}
    (kept : await ∈ (ui.continue index segment).pending) : await ∈ ui.pending ∨ await ∈ segment.2 := by
  rcases segment with ⟨demo,_ | following⟩
  · exact .inl (List.mem_of_mem_eraseIdx kept)
  · rcases List.mem_or_eq_of_mem_set kept with old | rfl
    exacts [.inl old,.inr rfl]

theorem Ui.Sound.continue {ui : Ui} (sound : ui.Sound) {index : Nat} {await : Await}
    (present : ui.pending[index]? = some await) {segment : Demo × Option Await} (next : SegmentSound segment) :
    (ui.continue index segment).Sound := by
  refine ⟨next.shown,fun _ kept => (Ui.mem_continue kept).elim (sound.pending _) (next.next _),fun loading => ?_⟩
  rcases segment with ⟨demo,_ | following⟩
  · exact Bool.noConfusion ((next.ends rfl).symm.trans loading)
  · simpa [Ui.continue] using List.ne_nil_of_mem (List.getElem?_mem present)

theorem startRequest_sound {wallet : Option Bytes} {seed : Bytes} {demo : Demo} (shown : demo.Shown)
    (enabled : demo.status.isLoading = false) (random : seed.length = 32) : SegmentSound (startRequest wallet seed demo) := by
  cases wallet with
  | none => exact ⟨shown,nofun,fun _ => enabled⟩
  | some _ =>
    refine SegmentSound.keep ?_ (show Await.Sound (.digest seed) from random)
    exact ⟨nofun,fun submitting => RequestStatus.noConfusion submitting⟩

theorem Ui.Sound.start {ui : Ui} (sound : ui.Sound) (enabled : ui.demo.status.isLoading = false) {seed : Bytes}
    (random : seed.length = 32) : (ui.start seed).Sound := by
  have segment : SegmentSound (startRequest ui.wallet seed ui.demo) := startRequest_sound sound.shown enabled random
  refine ⟨segment.shown,fun await pending => (List.mem_append.mp pending).elim (sound.pending await)
    fun fresh => segment.next await (Option.mem_toList.mp fresh),fun loading => ?_⟩
  cases started : (startRequest ui.wallet seed ui.demo).2 with
  | none => exact Bool.noConfusion ((segment.ends started).symm.trans loading)
  | some _ => simp [Ui.start,started]

theorem Ui.Sound.step {stringify : JsValue → String} {adjusts : Nat → Nat → Prop} {ui next : Ui} (sound : ui.Sound) :
    UiStep stringify adjusts ui next → next.Sound
  | .tick _ | .adjust _ | .connect _ => ⟨sound.shown,sound.pending,sound.live⟩
  | .click enabled _ random => sound.start enabled random
  | .cancel _ => ⟨⟨sound.shown.1,fun idle => RequestStatus.noConfusion idle⟩,sound.pending,Bool.noConfusion⟩
  | .answer pending outcome =>
    sound.continue pending ((resume_resumes stringify _ _ _ _ outcome).sound sound.shown
      (sound.pending _ (List.getElem?_mem pending)))
  | .fire pending _ => sound.continue pending (loopHead_sound sound.shown)

theorem uiReachable_sound {stringify : JsValue → String} {adjusts : Nat → Nat → Prop} {ui : Ui}
    (reachable : UiReachable stringify adjusts ui) : ui.Sound := by
  induction reachable with
  | initial => exact ⟨⟨nofun,fun idle => RequestStatus.noConfusion idle⟩,nofun,Bool.noConfusion⟩
  | step _ step sound => exact sound.step step

/-! ## What runs keep while `Date.now()` is never set back -/

def Turned (now startTime round : Nat) : Prop :=
  startTime + pollIntervalMs * round ≤ now ∧ pollIntervalMs * round < vrfTimeoutMs

-- A sleeping turn's timer fires, by `Date.now()`, no earlier than a poll interval after its turn.
def Await.OnTime (now uptime : Nat) : Await → Prop
  | .resultAccount startTime round => Turned now startTime round
  | .requestAccount startTime round => Turned now startTime round
  | .resultAccountAgain startTime round => Turned now startTime round
  | .timer startTime round deadline =>
    Turned now startTime round ∧ startTime + pollIntervalMs * (round + 1) + uptime ≤ now + deadline
  | _ => True

structure Ui.OnTime (ui : Ui) : Prop where
  countdown : ui.demo.timeRemaining ≤ vrfTimeoutMs / 1000
  pending : ∀ await ∈ ui.pending, await.OnTime ui.now ui.uptime

structure SegmentOnTime (now uptime : Nat) (segment : Demo × Option Await) : Prop where
  countdown : segment.1.timeRemaining ≤ vrfTimeoutMs / 1000
  next : ∀ next ∈ segment.2, next.OnTime now uptime

theorem Turned.later {now startTime round later : Nat} (turned : Turned now startTime round) (forward : now ≤ later) :
    Turned later startTime round :=
  ⟨Nat.le_trans turned.1 forward,turned.2⟩

theorem Await.OnTime.later {await : Await} {now uptime now' uptime' : Nat} (onTime : await.OnTime now uptime)
    (passed : uptime ≤ uptime') (behind : now + uptime' ≤ now' + uptime) : await.OnTime now' uptime' := by
  have forward : now ≤ now' := by omega
  cases await with
  | resultAccount | requestAccount | resultAccountAgain => exact Turned.later onTime forward
  | timer => exact ⟨onTime.1.later forward,by have := onTime.2; omega⟩
  | _ => trivial

theorem Await.OnTime.turned {now uptime : Nat} {await : Await} (onTime : await.OnTime now uptime) {startTime round : Nat}
    (polling : await.turn = some (startTime,round)) : Turned now startTime round := by
  cases await <;> simp only [Await.turn,Option.some.injEq,Prod.mk.injEq,reduceCtorEq] at polling
  all_goals obtain ⟨rfl,rfl⟩ := polling
  exacts [onTime,onTime,onTime,onTime.1]

theorem loopHead_onTime {now uptime startTime round : Nat} {demo : Demo}
    (countdown : demo.timeRemaining ≤ vrfTimeoutMs / 1000) (turned : startTime + pollIntervalMs * round ≤ now) :
    SegmentOnTime now uptime (loopHead now startTime round demo) := by
  have remaining : ((max 0 ((vrfTimeoutMs : Int) - ((now : Int) - startTime)) + 999) / 1000).toNat ≤
      vrfTimeoutMs / 1000 := by
    simp only [vrfTimeoutMs]
    omega
  unfold loopHead
  dsimp only
  split_ifs with aborted expired
  · exact ⟨(demo.settle_settled none).2 ▸ countdown,nofun⟩
  · exact ⟨(Demo.settle_settled _ none).2 ▸ remaining,nofun⟩
  · have inTime : pollIntervalMs * round < vrfTimeoutMs := by
      simp only [pollIntervalMs,vrfTimeoutMs] at turned expired ⊢
      omega
    exact ⟨remaining,by rintro _ ⟨⟩; exact ⟨turned,inTime⟩⟩

theorem Resumes.onTime {now uptime : Nat} {demo : Demo} {await : Await} {segment : Demo × Option Await}
    (resumes : Resumes now uptime demo await segment) (countdown : demo.timeRemaining ≤ vrfTimeoutMs / 1000)
    (onTime : await.OnTime now uptime) : SegmentOnTime now uptime segment := by
  cases resumes with
  | fail => exact ⟨countdown,nofun⟩
  | read => exact ⟨(demo.settle_settled _).2 ▸ countdown,nofun⟩
  | build | sign | sent => exact ⟨countdown,by rintro _ ⟨⟩; trivial⟩
  | confirmed => exact loopHead_onTime (Nat.le_refl _) (by omega)
  | request | again => exact ⟨countdown,by rintro _ ⟨⟩; exact onTime⟩
  | poll polling =>
    have turned := onTime.turned polling
    exact ⟨countdown,by rintro _ ⟨⟩; exact ⟨turned,by have := turned.1; simp only [pollIntervalMs] at this ⊢; omega⟩⟩

theorem Ui.OnTime.continue {ui : Ui} (onTime : ui.OnTime) {index : Nat} {segment : Demo × Option Await}
    (next : SegmentOnTime ui.now ui.uptime segment) : (ui.continue index segment).OnTime :=
  ⟨next.countdown,fun _ kept => (Ui.mem_continue kept).elim (onTime.pending _) (next.next _)⟩

theorem Ui.OnTime.start {ui : Ui} (onTime : ui.OnTime) (seed : Bytes) : (ui.start seed).OnTime := by
  rcases ui with ⟨demo,now,uptime,_ | wallet,pending⟩
  · exact ⟨onTime.countdown,by simpa [Ui.start,startRequest] using onTime.pending⟩
  · refine ⟨onTime.countdown,fun await kept => ?_⟩
    simp only [Ui.start,startRequest,Option.toList_some,List.mem_append,List.mem_singleton] at kept
    rcases kept with old | rfl
    exacts [onTime.pending await old,trivial]

theorem Ui.OnTime.step {stringify : JsValue → String} {adjusts : Nat → Nat → Prop}
    (forward : ∀ before after, adjusts before after → before ≤ after) {ui next : Ui} (onTime : ui.OnTime) :
    UiStep stringify adjusts ui next → next.OnTime
  | .tick _ => ⟨onTime.countdown,fun await pending => (onTime.pending await pending).later (Nat.le_add_right _ _)
      (by dsimp only; omega)⟩
  | .adjust allowed => ⟨onTime.countdown,fun await pending => (onTime.pending await pending).later (Nat.le_refl _)
      (Nat.add_le_add_right (forward _ _ allowed) _)⟩
  | .connect _ | .cancel _ => ⟨onTime.countdown,onTime.pending⟩
  | .click _ _ _ => onTime.start _
  | .answer pending outcome =>
    onTime.continue ((resume_resumes stringify _ _ _ _ outcome).onTime onTime.countdown
      (onTime.pending _ (List.getElem?_mem pending)))
  | .fire pending due =>
    have timer := onTime.pending _ (List.getElem?_mem pending)
    onTime.continue (loopHead_onTime onTime.countdown (by have := timer.2; omega))

theorem uiReachable_onTime {stringify : JsValue → String} {adjusts : Nat → Nat → Prop}
    (forward : ∀ before after, adjusts before after → before ≤ after) {ui : Ui} (reachable : UiReachable stringify adjusts ui) :
    ui.OnTime := by
  induction reachable with
  | initial => exact ⟨Nat.zero_le _,nofun⟩
  | step _ step onTime => exact onTime.step forward step

-- Without that assumption: with `Date.now()` set back 5 seconds while a call sleeps after its
-- first turn, the next turn shows 63 seconds left and starts before `startTime`.
set_option maxRecDepth 4000 in
example : ∃ ui : Ui, UiReachable (fun _ => "") (fun _ _ => True) ui ∧ ui.demo.timeRemaining = 63 ∧
    .resultAccount 5000 1 ∈ ui.pending ∧ ui.now < 5000 + pollIntervalMs * 1 := by
  have clicked := (UiReachable.initial 5000 0 (some [])).step
    (@UiStep.click (fun _ => "") (fun _ _ => True) _ (List.replicate 32 7) rfl rfl rfl)
  have built := clicked.step (@UiStep.answer _ _ _ 0 (.digest (List.replicate 32 7)) (by rfl) (.ok ()))
  have signed := built.step (@UiStep.answer _ _ _ 0 (.latestBlockhash _) (by rfl) (.ok ()))
  have sent := signed.step (@UiStep.answer _ _ _ 0 (.send _) (by rfl) (.ok ()))
  have confirmed := sent.step (@UiStep.answer _ _ _ 0 .confirm (by rfl) (.ok none))
  have missing := confirmed.step (@UiStep.answer _ _ _ 0 (.resultAccount 5000 0) (by rfl) (.ok none))
  have asleep := missing.step (@UiStep.answer _ _ _ 0 (.requestAccount 5000 0) (by rfl) (.ok none))
  have setBack := asleep.step (@UiStep.adjust _ _ _ 0 trivial)
  have fired := (setBack.step (UiStep.tick 2000)).step (@UiStep.fire _ _ _ 0 5000 0 2000 (by rfl) (by decide))
  exact ⟨_,fired,rfl,List.Mem.head _,by decide⟩

/-! ## The demo over every run -/

set_option maxRecDepth 4000 in
theorem demoRun_stages :
    (∃ (ui : Ui) (instructions : List Bytes), UiReachable (fun _ => "") (· ≤ ·) ui ∧ .send instructions ∈ ui.pending) ∧
      (∃ ui : Ui, UiReachable (fun _ => "") (· ≤ ·) ui ∧ .resultAccount 0 0 ∈ ui.pending ∧ ui.demo.status = .waiting) ∧
      ∃ ui : Ui, UiReachable (fun _ => "") (· ≤ ·) ui ∧ ui.demo.status = .fulfilled := by
  have clicked := (UiReachable.initial 0 0 (some [])).step
    (@UiStep.click (fun _ => "") (· ≤ ·) _ (List.replicate 32 7) rfl rfl rfl)
  have built := clicked.step (@UiStep.answer _ _ _ 0 (.digest (List.replicate 32 7)) (by rfl) (.ok ()))
  have signed := built.step (@UiStep.answer _ _ _ 0 (.latestBlockhash _) (by rfl) (.ok ()))
  have sent := signed.step (@UiStep.answer _ _ _ 0 (.send _) (by rfl) (.ok ()))
  have confirmed := sent.step (@UiStep.answer _ _ _ 0 .confirm (by rfl) (.ok none))
  have read := confirmed.step (@UiStep.answer _ _ _ 0 (.resultAccount 0 0) (by rfl)
    (.ok (some ⟨List.replicate 8 0 ++ [1,0,0,0] ++ List.replicate 64 5,0,76,by decide⟩)))
  exact ⟨⟨_,_,signed,List.Mem.head _⟩,⟨_,confirmed,List.Mem.head _,rfl⟩,_,read,rfl⟩

theorem sentTransaction_requests {stringify : JsValue → String} {adjusts : Nat → Nat → Prop} {ui : Ui}
    (reachable : UiReachable stringify adjusts ui) {instructions : List Bytes} (sending : .send instructions ∈ ui.pending) :
    ∃ seed data, seed.length = 32 ∧ instructionData seed = .ok instructions ∧ instructions[3]? = some data ∧
      decodeRequestRandomness data = some (⟨requestRandomnessDiscriminator,seed,[],1,1,100000,0⟩,[]) :=
  (uiReachable_sound reachable).pending _ sending

theorem sentTransaction_requests_sample :
    ∃ (ui : Ui) (instructions : List Bytes), UiReachable (fun _ => "") (· ≤ ·) ui ∧ .send instructions ∈ ui.pending ∧
      ∃ seed data, seed.length = 32 ∧ instructionData seed = .ok instructions ∧ instructions[3]? = some data ∧
        decodeRequestRandomness data = some (⟨requestRandomnessDiscriminator,seed,[],1,1,100000,0⟩,[]) := by
  obtain ⟨ui,instructions,reachable,sending⟩ := demoRun_stages.1
  exact ⟨ui,instructions,reachable,sending,sentTransaction_requests reachable sending⟩

theorem demoResult_shown {stringify : JsValue → String} {adjusts : Nat → Nat → Prop} {ui : Ui}
    (reachable : UiReachable stringify adjusts ui) :
    (∀ fullHex ∈ ui.demo.result, ∃ randomOutput : Bytes, randomOutput.length = 64 ∧ fullHex = toHex randomOutput) ∧
      (ui.demo.status = .fulfilled → ui.demo.result.isSome) ∧
      ((∀ before after, adjusts before after → before ≤ after) → ui.demo.timeRemaining ≤ vrfTimeoutMs / 1000) :=
  ⟨(uiReachable_sound reachable).shown.1,(uiReachable_sound reachable).shown.2,
    fun forward => (uiReachable_onTime forward reachable).countdown⟩

theorem demoResult_shown_fulfilled :
    ∃ ui : Ui, UiReachable (fun _ => "") (· ≤ ·) ui ∧ ui.demo.status = .fulfilled ∧
      (∀ fullHex ∈ ui.demo.result, ∃ randomOutput : Bytes, randomOutput.length = 64 ∧ fullHex = toHex randomOutput) ∧
      (ui.demo.status = .fulfilled → ui.demo.result.isSome) ∧ ui.demo.timeRemaining ≤ vrfTimeoutMs / 1000 := by
  obtain ⟨ui,reachable,fulfilled⟩ := demoRun_stages.2.2
  obtain ⟨results,holds,countdown⟩ := demoResult_shown reachable
  exact ⟨ui,reachable,fulfilled,results,holds,countdown fun _ _ => id⟩

theorem resultPanel_inRange {stringify : JsValue → String} {adjusts : Nat → Nat → Prop} {ui : Ui}
    (reachable : UiReachable stringify adjusts ui) (fulfilled : ui.demo.status = .fulfilled) :
    ∃ fullHex rendered, ui.demo.result = some fullHex ∧ renderResult fullHex = .ok rendered ∧
      1 ≤ rendered.humanNumber ∧ rendered.humanNumber ≤ 1000000 ∧ rendered.percentage ≤ 10000 ∧
      1 ≤ rendered.diceRoll ∧ rendered.diceRoll ≤ 6 := by
  have shown := (uiReachable_sound reachable).shown
  obtain ⟨fullHex,result⟩ := Option.isSome_iff_exists.mp (shown.2 fulfilled)
  obtain ⟨randomOutput,sized,rfl⟩ := shown.1 fullHex result
  obtain ⟨rendered,rendering,ranges⟩ := renderResult_hex sized
  exact ⟨_,rendered,result,rendering,ranges⟩

theorem resultPanel_inRange_fulfilled :
    ∃ ui : Ui, UiReachable (fun _ => "") (· ≤ ·) ui ∧ ui.demo.status = .fulfilled ∧
      ∃ fullHex rendered, ui.demo.result = some fullHex ∧ renderResult fullHex = .ok rendered ∧
        1 ≤ rendered.humanNumber ∧ rendered.humanNumber ≤ 1000000 ∧ rendered.percentage ≤ 10000 ∧
        1 ≤ rendered.diceRoll ∧ rendered.diceRoll ≤ 6 := by
  obtain ⟨ui,reachable,fulfilled⟩ := demoRun_stages.2.2
  exact ⟨ui,reachable,fulfilled,resultPanel_inRange reachable fulfilled⟩

theorem pollingTurns_bounded {stringify : JsValue → String} {adjusts : Nat → Nat → Prop}
    (forward : ∀ before after, adjusts before after → before ≤ after) {ui : Ui} (reachable : UiReachable stringify adjusts ui)
    {await : Await} (pending : await ∈ ui.pending) {startTime round : Nat} (polling : await.turn = some (startTime,round)) :
    startTime + pollIntervalMs * round ≤ ui.now ∧ round < vrfTimeoutMs / pollIntervalMs := by
  have turned := ((uiReachable_onTime forward reachable).pending await pending).turned polling
  refine ⟨turned.1,?_⟩
  have := turned.2
  simp only [pollIntervalMs,vrfTimeoutMs] at this ⊢
  omega

theorem pollingTurns_bounded_firstTurn :
    ∃ ui : Ui, UiReachable (fun _ => "") (· ≤ ·) ui ∧ .resultAccount 0 0 ∈ ui.pending ∧
      0 + pollIntervalMs * 0 ≤ ui.now ∧ 0 < vrfTimeoutMs / pollIntervalMs := by
  obtain ⟨ui,reachable,polling,-⟩ := demoRun_stages.2.1
  exact ⟨ui,reachable,polling,pollingTurns_bounded (fun _ _ => id) reachable polling rfl⟩

theorem loading_pending {stringify : JsValue → String} {adjusts : Nat → Nat → Prop} {ui : Ui}
    (reachable : UiReachable stringify adjusts ui) (loading : ui.demo.status.isLoading = true) : ui.pending ≠ [] :=
  (uiReachable_sound reachable).live loading

theorem loading_pending_waiting :
    ∃ ui : Ui, UiReachable (fun _ => "") (· ≤ ·) ui ∧ ui.demo.status.isLoading = true ∧ ui.pending ≠ [] := by
  obtain ⟨ui,reachable,-,waiting⟩ := demoRun_stages.2.1
  have loading : ui.demo.status.isLoading = true := by rw [waiting]; rfl
  exact ⟨ui,reachable,loading,loading_pending reachable loading⟩

end KamuiVrf
