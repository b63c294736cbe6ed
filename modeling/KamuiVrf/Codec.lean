import KamuiVrf.Cli

namespace KamuiVrf

-- The texts that cross the process boundary: the hex of `toString('hex')` and
-- `Buffer.from(text, 'hex')`, and the CLI's prove and keygen output.

/-! ## Hex -/

theorem hexValue_hexDigit : ∀ n < 16, hexValue (hexDigit n) = some n := by decide

theorem hexDigits_eq : "0123456789abcdef".toList = (List.range 16).map hexDigit := by decide

theorem hexPairs_hexByte (b : UInt8) (rest : List Char) : hexPairs (hexByte b ++ rest) = b :: hexPairs rest := by
  have byte : b.toNat < 256 := b.toNat_lt_size
  simp only [hexByte,List.cons_append,List.nil_append,hexPairs,hexValue_hexDigit _ (by omega : b.toNat / 16 < 16),
    hexValue_hexDigit _ (by omega : b.toNat % 16 < 16),Nat.div_add_mod]
  exact congrArg (· :: hexPairs rest) (UInt8.toNat.inj (UInt8.toNat_ofNat_of_lt b.toNat_lt_size))

-- Two hex digits read as a byte are written back as the same two digits.
theorem hexByte_pair {high low : Nat} (highDigit : high < 16) (lowDigit : low < 16) :
    hexByte (UInt8.ofNat (16 * high + low)) = [hexDigit high,hexDigit low] := by
  have value : (UInt8.ofNat (16 * high + low)).toNat = 16 * high + low :=
    UInt8.toNat_ofNat_of_lt (by show _ < 256; omega)
  simp only [hexByte,value,List.cons.injEq,and_true]
  constructor <;> congr 1 <;> omega

theorem flatMap_hexPairs : ∀ text : List Char, text.length % 2 = 0 →
    (∀ c ∈ text, c ∈ "0123456789abcdef".toList) → (hexPairs text).flatMap hexByte = text
  | [],_,_ => rfl
  | [_],odd,_ => by simp at odd
  | a :: b :: rest,even,digits => by
    rw [hexDigits_eq] at digits
    obtain ⟨high,highDigit,rfl⟩ := List.mem_map.mp (digits a (by simp))
    obtain ⟨low,lowDigit,rfl⟩ := List.mem_map.mp (digits b (by simp))
    rw [List.mem_range] at highDigit lowDigit
    have restEven : rest.length % 2 = 0 := by simp only [List.length_cons] at even; omega
    rw [← hexDigits_eq] at digits
    simp only [hexPairs,hexValue_hexDigit _ highDigit,hexValue_hexDigit _ lowDigit,List.flatMap_cons,
      hexByte_pair highDigit lowDigit,List.cons_append,List.nil_append,
      flatMap_hexPairs rest restEven fun c inside => digits c (by simp [inside])]

theorem length_flatMap_hexByte (data : Bytes) : (data.flatMap hexByte).length = 2 * data.length := by
  induction data with
  | nil => rfl
  | cons b rest ih =>
    simp only [List.flatMap_cons,List.length_append,ih,hexByte,List.length_cons,List.length_nil]
    omega

-- `toString('hex')` and `Buffer.from(text, 'hex')` are inverse bijections between byte
-- buffers and the even-length texts of lowercase hex digits.
theorem hex_roundTrip :
    (∀ data : Bytes, fromHex (toHex data) = data ∧ (toHex data).length = 2 * data.length ∧
      ∀ c ∈ (toHex data).toList, c ∈ "0123456789abcdef".toList) ∧
    ∀ text : String, text.length % 2 = 0 → (∀ c ∈ text.toList, c ∈ "0123456789abcdef".toList) →
      toHex (fromHex text) = text := by
  refine ⟨fun data => ⟨?_,?_,fun _ => mem_toHex⟩,fun text even digits => ?_⟩
  · induction data with
    | nil => rfl
    | cons b rest ih => exact (hexPairs_hexByte b _).trans (congrArg _ ih)
  · exact length_flatMap_hexByte data
  · exact congrArg String.mk (flatMap_hexPairs text.toList even digits)

theorem hex_roundTrip_sample : toHex (fromHex "c0ffee") = "c0ffee" :=
  hex_roundTrip.2 "c0ffee" (by decide) (by decide)

/-! ## Lines of the CLI's output -/

theorem hexChars_plain : ∀ c ∈ "0123456789abcdef".toList, isJsSpace c = false ∧ c ≠ '\n' := by decide

theorem splitLines_of_not_mem {line : List Char} (single : '\n' ∉ line) : splitLines line = [line] := by
  induction line with
  | nil => rfl
  | cons c rest ih =>
    have other : c ≠ '\n' := fun same => single (same ▸ List.mem_cons_self c rest)
    simp [splitLines,other,ih (fun inside => single (List.mem_cons_of_mem c inside))]

theorem splitLines_newline {line : List Char} (rest : List Char) (single : '\n' ∉ line) :
    splitLines (line ++ '\n' :: rest) = line :: splitLines rest := by
  induction line with
  | nil => simp [splitLines]
  | cons c line ih =>
    have other : c ≠ '\n' := fun same => single (same ▸ List.mem_cons_self c line)
    simp [splitLines,other,ih (fun inside => single (List.mem_cons_of_mem c inside))]

-- `trim()` of a text that starts and ends with a visible character, followed by whitespace.
theorem jsTrim_of_ends (text post : List Char) (first : ∀ c ∈ text.head?, isJsSpace c = false)
    (last : ∀ c ∈ text.getLast?, isJsSpace c = false) (trailing : ∀ c ∈ post, isJsSpace c = true) :
    jsTrim (text ++ post) = text := by
  cases text with
  | nil => simp [jsTrim,List.dropWhile_eq_nil_iff.mpr trailing]
  | cons c rest =>
    have back : ((c :: rest).reverse.dropWhile isJsSpace) = (c :: rest).reverse := by
      cases reversed : (c :: rest).reverse with
      | nil => rfl
      | cons d front =>
        have : isJsSpace d = false := last d (by rw [← List.head?_reverse,reversed]; rfl)
        simp [this]
    have front : ((c :: rest) ++ post).dropWhile isJsSpace = (c :: rest) ++ post :=
      List.dropWhile_cons_of_neg (by simpa using first c rfl)
    rw [jsTrim,front,List.reverse_append,List.dropWhile_append_of_pos (by simpa using trailing),back,
      List.reverse_reverse]

theorem jsTrim_spaced (pre text : List Char) (leading : ∀ c ∈ pre, isJsSpace c = true)
    (solid : ∀ c ∈ text, isJsSpace c = false) : jsTrim (pre ++ text) = text := by
  have : text.dropWhile isJsSpace = text := by
    cases text with
    | nil => rfl
    | cons c rest => simp [solid c (List.mem_cons_self c rest)]
  have back : text.reverse.dropWhile isJsSpace = text.reverse := by
    cases reversed : text.reverse with
    | nil => rfl
    | cons d front => simp [solid d (List.mem_reverse.mp (reversed ▸ List.mem_cons_self d front))]
  simp only [jsTrim,List.dropWhile_append_of_pos leading,this,back,List.reverse_reverse]

-- Two lines, each a label and then hex digits, as the CLI prints them: `trim()` and
-- `split('\n')` give the two lines back.
theorem labelledLines (label₁ label₂ first second : List Char) (visible : ∀ c ∈ label₁.head?, isJsSpace c = false)
    (single₁ : '\n' ∉ label₁) (single₂ : '\n' ∉ label₂) (digits₁ : ∀ c ∈ first, c ∈ "0123456789abcdef".toList)
    (digits₂ : ∀ c ∈ second, c ∈ "0123456789abcdef".toList) (printed : second ≠ []) (named : label₁ ≠ []) :
    splitLines (jsTrim (label₁ ++ first ++ '\n' :: (label₂ ++ second) ++ ['\n'])) = [label₁ ++ first,label₂ ++ second] := by
  have trimmed := jsTrim_of_ends ((label₁ ++ first ++ '\n' :: label₂) ++ second) ['\n']
    (by obtain ⟨c,rest,rfl⟩ := List.exists_cons_of_ne_nil named; simpa using visible)
    (fun c last => (hexChars_plain c (digits₂ c (List.mem_of_getLast?_eq_some
      ((List.getLast?_append_of_ne_nil _ printed).symm.trans last)))).1)
    (by decide)
  simp only [List.append_assoc,List.cons_append] at trimmed
  simp only [List.append_assoc,List.cons_append]
  rw [trimmed,← List.append_assoc,splitLines_newline _ (by simpa [single₁] using fun inside => (hexChars_plain _ (digits₁ _ inside)).2 rfl),
    splitLines_of_not_mem (by simpa [single₂] using fun inside => (hexChars_plain _ (digits₂ _ inside)).2 rfl)]

theorem afterFirst_append (pattern rest : List Char) : afterFirst pattern (pattern ++ rest) = some rest := by
  cases whole : pattern ++ rest with
  | nil =>
    obtain ⟨rfl,rfl⟩ := List.append_eq_nil.mp whole
    rfl
  | cons c text => rw [afterFirst,if_pos ⟨rest,whole⟩,← whole,List.drop_left]

theorem afterFirst_of_not_mem {pattern text : List Char} {p : Char} (starts : pattern.head? = some p)
    (absent : p ∉ text) : afterFirst pattern text = none := by
  obtain ⟨ps,rfl⟩ : ∃ ps, pattern = p :: ps := by cases pattern <;> simp_all
  induction text with
  | nil => rfl
  | cons c rest ih =>
    have other : p ≠ c := fun same => absent (same ▸ List.mem_cons_self p rest)
    simp [afterFirst,other,ih (fun inside => absent (List.mem_cons_of_mem c inside))]

theorem upToFirst_of_not_mem {pattern text : List Char} {p : Char} (starts : pattern.head? = some p)
    (absent : p ∉ text) : upToFirst pattern text = text := by
  obtain ⟨ps,rfl⟩ : ∃ ps, pattern = p :: ps := by cases pattern <;> simp_all
  induction text with
  | nil => rfl
  | cons c rest ih =>
    have other : p ≠ c := fun same => absent (same ▸ List.mem_cons_self p rest)
    simp [upToFirst,other,ih (fun inside => absent (List.mem_cons_of_mem c inside))]

-- `line.split(label)[1]` of a line that starts with the label and holds it once.
theorem secondPiece_labelled (pattern rest : List Char) {p : Char} (starts : pattern.head? = some p)
    (absent : p ∉ rest) : secondPiece (pattern ++ rest) pattern = rest := by
  simp only [secondPiece,afterFirst_append,Option.map_some',upToFirst_of_not_mem starts absent,Option.getD_some]

theorem hexText_avoids (c : Char) (absent : c ∉ "0123456789abcdef".toList) (data : Bytes) :
    c ∉ (toHex data).toList :=
  fun inside => absent (mem_toHex inside)

theorem toHex_ne_nil {data : Bytes} (nonempty : data ≠ []) : (toHex data).toList ≠ [] := by
  obtain ⟨b,rest,rfl⟩ := List.exists_cons_of_ne_nil nonempty
  simp [toHex,hexByte]

-- The first line that carries each label, when each label heads one of two printed lines.
theorem find?_labelled (label₁ label₂ : List Char) {p₂ : Char} (starts : label₂.head? = some p₂)
    (absent : p₂ ∉ label₁) (spaceless : p₂ ≠ ' ') (hexFree : p₂ ∉ "0123456789abcdef".toList) (first second : Bytes) :
    [label₁ ++ ' ' :: (toHex first).toList,label₂ ++ ' ' :: (toHex second).toList].find? (includesText · label₁) =
        some (label₁ ++ ' ' :: (toHex first).toList) ∧
      [label₁ ++ ' ' :: (toHex first).toList,label₂ ++ ' ' :: (toHex second).toList].find? (includesText · label₂) =
        some (label₂ ++ ' ' :: (toHex second).toList) := by
  have carries : ∀ label rest, includesText (label ++ rest) label = true := fun label rest => by
    rw [includesText,afterFirst_append]; rfl
  have other : includesText (label₁ ++ ' ' :: (toHex first).toList) label₂ = false := by
    rw [includesText,afterFirst_of_not_mem starts]
    · rfl
    · exact List.not_mem_append absent (List.not_mem_cons_of_ne_of_not_mem spaceless (hexText_avoids p₂ hexFree first))
  simp only [List.find?,carries,other,and_self]

-- `trim()` of hex digits after whitespace.
theorem jsTrim_hexText (pre : List Char) (spaces : ∀ c ∈ pre, isJsSpace c = true) (data : Bytes) :
    jsTrim (pre ++ (toHex data).toList) = (toHex data).toList :=
  jsTrim_spaced pre _ spaces fun c inside => (hexChars_plain c (mem_toHex inside)).1

-- `MangekyouCLIInterface.generateProof` reads back the proof and output the CLI prints.
theorem parseProveOutput_printed (proof output : Bytes) (printed : output ≠ []) :
    parseProveOutput ("Proof: " ++ toHex proof ++ "\nOutput: " ++ toHex output ++ "\n") =
      some ⟨toHex proof,toHex output⟩ := by
  have text : ("Proof: " ++ toHex proof ++ "\nOutput: " ++ toHex output ++ "\n").toList =
      ("Proof:".toList ++ [' ']) ++ (toHex proof).toList ++
        '\n' :: (("Output:".toList ++ [' ']) ++ (toHex output).toList) ++ ['\n'] := by
    simp
  have lines := labelledLines ("Proof:".toList ++ [' ']) ("Output:".toList ++ [' ']) (toHex proof).toList
    (toHex output).toList (by decide) (by decide) (by decide) (fun _ => mem_toHex) (fun _ => mem_toHex)
    (toHex_ne_nil printed) (by decide)
  simp only [List.append_assoc,List.singleton_append] at lines text
  obtain ⟨proofLine,outputLine⟩ := find?_labelled "Proof:".toList "Output:".toList rfl (by decide) (by decide) (by decide) proof output
  have proofPiece := secondPiece_labelled "Proof:".toList (' ' :: (toHex proof).toList) rfl
    (by simpa using hexText_avoids 'P' (by decide) proof)
  have outputPiece := secondPiece_labelled "Output:".toList (' ' :: (toHex output).toList) rfl
    (by simpa using hexText_avoids 'O' (by decide) output)
  have proofText : jsTrim (' ' :: (toHex proof).toList) = _ := jsTrim_hexText [' '] (by decide) proof
  have outputText : jsTrim (' ' :: (toHex output).toList) = _ := jsTrim_hexText [' '] (by decide) output
  simp only [parseProveOutput,text,lines,proofLine,outputLine,Option.bind_eq_bind,Option.some_bind,proofPiece,
    outputPiece,proofText,outputText]
  rfl

theorem parseProveOutput_printed_sample :
    ([0xab] : Bytes) ≠ [] ∧ parseProveOutput ("Proof: " ++ toHex [0x01] ++ "\nOutput: " ++ toHex [0xab] ++ "\n") =
      some ⟨"01","ab"⟩ :=
  ⟨by decide,parseProveOutput_printed [0x01] [0xab] (by decide)⟩

-- `generateVRFKeypair`'s error when the output lacks a labelled line.
def keygenParseError : JsValue := .error "Error" "Failed to parse CLI keygen output"

-- `split(label)[1]` of a line without `label` is `undefined`, and `.trim()` on it throws.
def trimUndefinedError : JsValue := .error "TypeError" "Cannot read properties of undefined (reading 'trim')"

-- `line.split(label)[1].trim()`
def splitSecondTrim (line label : List Char) : Except JsValue String :=
  match afterFirst label line with
  | some rest => .ok (String.mk (jsTrim (upToFirst label rest)))
  | none => .error trimUndefinedError

-- The keypair `generateVRFKeypair` (and the integration test's `RealVRFServer.initialize`)
-- reads from the stdout of `keygen`.
def parseKeygenOutput (stdout : String) : Except JsValue VrfKeypair :=
  let lines := splitLines (jsTrim stdout.toList)
  match lines.find? (includesText · "Secret key:".toList),lines.find? (includesText · "Public key:".toList) with
  | some secretKeyLine,some publicKeyLine => do
    let secretKey ← splitSecondTrim secretKeyLine "Secret key: ".toList
    let publicKey ← splitSecondTrim publicKeyLine "Public key: ".toList
    pure ⟨secretKey,publicKey⟩
  | _,_ => .error keygenParseError

theorem splitSecondTrim_labelled (label : List Char) {p : Char} (starts : label.head? = some p)
    (hexFree : p ∉ "0123456789abcdef".toList) (data : Bytes) :
    splitSecondTrim (label ++ (toHex data).toList) label = .ok (toHex data) := by
  have trimmed : jsTrim (toHex data).toList = _ := jsTrim_hexText [] (by decide) data
  simp only [splitSecondTrim,afterFirst_append,upToFirst_of_not_mem starts (hexText_avoids p hexFree data),trimmed]
  rfl

-- The keys `keygen` prints are the keys the CLI interface is set up with.
theorem parseKeygenOutput_printed (secretKey publicKey : Bytes) (printed : publicKey ≠ []) :
    parseKeygenOutput ("Secret key: " ++ toHex secretKey ++ "\nPublic key: " ++ toHex publicKey ++ "\n") =
      .ok ⟨toHex secretKey,toHex publicKey⟩ := by
  have text : ("Secret key: " ++ toHex secretKey ++ "\nPublic key: " ++ toHex publicKey ++ "\n").toList =
      ("Secret key:".toList ++ [' ']) ++ (toHex secretKey).toList ++
        '\n' :: (("Public key:".toList ++ [' ']) ++ (toHex publicKey).toList) ++ ['\n'] := by
    simp
  have lines := labelledLines ("Secret key:".toList ++ [' ']) ("Public key:".toList ++ [' ']) (toHex secretKey).toList
    (toHex publicKey).toList (by decide) (by decide) (by decide) (fun _ => mem_toHex) (fun _ => mem_toHex)
    (toHex_ne_nil printed) (by decide)
  have secretPiece := splitSecondTrim_labelled "Secret key: ".toList rfl (by decide) secretKey
  have publicPiece := splitSecondTrim_labelled "Public key: ".toList rfl (by decide) publicKey
  simp only [List.append_assoc,List.singleton_append] at lines text
  obtain ⟨secretLine,publicLine⟩ := find?_labelled "Secret key:".toList "Public key:".toList rfl (by decide) (by decide)
    (by decide) secretKey publicKey
  have secretSplit : "Secret key:".toList ++ ' ' :: (toHex secretKey).toList =
      "Secret key: ".toList ++ (toHex secretKey).toList := by simp
  have publicSplit : "Public key:".toList ++ ' ' :: (toHex publicKey).toList =
      "Public key: ".toList ++ (toHex publicKey).toList := by simp
  simp only [parseKeygenOutput,text,lines,secretLine,publicLine]
  simp only [secretSplit,publicSplit,secretPiece,publicPiece,except_ok_bind]
  rfl

theorem parseKeygenOutput_printed_sample :
    ([0xcd] : Bytes) ≠ [] ∧ parseKeygenOutput ("Secret key: " ++ toHex [0x02] ++ "\nPublic key: " ++ toHex [0xcd] ++ "\n") =
      .ok ⟨"02","cd"⟩ :=
  ⟨by decide,parseKeygenOutput_printed [0x02] [0xcd] (by decide)⟩

end KamuiVrf
