import KamuiVrf.Program

namespace KamuiVrf

-- The JS string operations the CLI output parser uses, on the string's characters.

-- `WhiteSpace` and `LineTerminator` of ECMA-262, which `trim()` removes.
def isJsSpace (c : Char) : Bool :=
  c = ' ' ∨ c = '\t' ∨ c = '\n' ∨ c = '\r' ∨ c.toNat = 11 ∨ c.toNat = 12 ∨ c.toNat = 0xA0 ∨
    c.toNat = 0x1680 ∨ (0x2000 ≤ c.toNat ∧ c.toNat ≤ 0x200A) ∨ c.toNat = 0x2028 ∨ c.toNat = 0x2029 ∨
    c.toNat = 0x202F ∨ c.toNat = 0x205F ∨ c.toNat = 0x3000 ∨ c.toNat = 0xFEFF

def jsTrim (text : List Char) : List Char :=
  ((text.dropWhile isJsSpace).reverse.dropWhile isJsSpace).reverse

-- `text.split('\n')`
def splitLines : List Char → List (List Char)
  | [] => [[]]
  | c :: rest =>
    if c = '\n' then [] :: splitLines rest
    else match splitLines rest with
      | line :: lines => (c :: line) :: lines
      | [] => [[c]]

-- The text after the first occurrence of `pattern`, if there is one.
def afterFirst (pattern : List Char) : List Char → Option (List Char)
  | [] => if pattern = [] then some [] else none
  | c :: rest => if pattern <+: c :: rest then some ((c :: rest).drop pattern.length) else afterFirst pattern rest

-- The text up to the first occurrence of `pattern`, or all of it.
def upToFirst (pattern : List Char) : List Char → List Char
  | [] => []
  | c :: rest => if pattern <+: c :: rest then [] else c :: upToFirst pattern rest

def includesText (text pattern : List Char) : Bool := (afterFirst pattern text).isSome

-- `text.split(pattern)[1]` for a text that includes the nonempty `pattern`.
def secondPiece (text pattern : List Char) : List Char :=
  ((afterFirst pattern text).map (upToFirst pattern)).getD []

structure VrfKeypair where
  secretKey : String
  publicKey : String
deriving DecidableEq, Repr

-- A `MangekyouCLIInterface` after `initialize()`: the binary found and the keypair loaded.
structure MangekyouCLIInterface where
  cliPath : String
  vrfKeypair : VrfKeypair
deriving DecidableEq, Repr

structure ProofResult where
  proof : String
  output : String
deriving DecidableEq, Repr

def MangekyouCLIInterface.getPublicKey (cli : MangekyouCLIInterface) : String := cli.vrfKeypair.publicKey

def MangekyouCLIInterface.proveCommand (cli : MangekyouCLIInterface) (inputHex : String) : String :=
  cli.cliPath ++ " prove --input " ++ inputHex ++ " --secret-key " ++ cli.vrfKeypair.secretKey

def MangekyouCLIInterface.verifyCommand (cli : MangekyouCLIInterface)
    (proof output publicKey inputHex : String) : String :=
  cli.cliPath ++ " verify --proof " ++ proof ++ " --output " ++ output ++ " --public-key " ++ publicKey ++
    " --input " ++ inputHex

-- The `Proof:` and `Output:` lines of the prove command's stdout.
def parseProveOutput (stdout : String) : Option ProofResult := do
  let lines := splitLines (jsTrim stdout.toList)
  let proofLine ← lines.find? fun line => includesText line "Proof:".toList
  let outputLine ← lines.find? fun line => includesText line "Output:".toList
  pure ⟨String.mk (jsTrim (secondPiece proofLine "Proof:".toList)),
    String.mk (jsTrim (secondPiece outputLine "Output:".toList))⟩

def proveParseError (stdout : String) : JsValue := .error "Error" ("Failed to parse CLI prove output: " ++ stdout)

def MangekyouCLIInterface.generateProof (cli : MangekyouCLIInterface) (input : Bytes) : M ProofResult :=
  let inputHex := toHex input
  tryCatch
    (do
      let result ← execAsync (cli.proveCommand inputHex)
      match parseProveOutput result.stdout with
      | some proofResult => pure proofResult
      | none => throwJs (proveParseError result.stdout))
    logAndRethrow

-- The CLI exits with a non-zero code, and `execAsync` rejects, when verification fails.
def MangekyouCLIInterface.verifyProof (cli : MangekyouCLIInterface) (proof output publicKey : String)
    (input : Bytes) : M Bool :=
  let inputHex := toHex input
  tryCatch
    (do
      let _ ← execAsync (cli.verifyCommand proof output publicKey inputHex)
      pure true)
    (logAndReturn false)

namespace MangekyouCLIInterface

theorem wp_generateProof (cli : MangekyouCLIInterface) (input : Bytes) (server : Server) :
    (cli.generateProof input server).wp pending done failed ↔
      pending server (.exec (cli.proveCommand (toHex input))) ∧
      (∀ output, match parseProveOutput output.stdout with
        | some result => done result (server.log (.io (.exec (cli.proveCommand (toHex input))) (Except.ok output)))
        | none => failed (proveParseError output.stdout)
            (server.log (.io (.exec (cli.proveCommand (toHex input))) (Except.ok output)))) ∧
      ∀ error, failed (if error.isNullish then readMessageError else error)
        (server.log (.io (.exec (cli.proveCommand (toHex input))) (Except.error error))) := by
  simp only [generateProof,tryCatch_apply,Prog.wp_handle,M.bind_apply,Prog.wp_bind,Prog.wp_execAsync,
    Prog.wp_logAndRethrow]
  refine and_congr_right fun _ => and_congr_left fun _ => forall_congr' fun output => ?_
  split <;> simp_all [proveParseError,JsValue.isNullish]

theorem wp_verifyProof (cli : MangekyouCLIInterface) (proof output publicKey : String) (input : Bytes)
    (server : Server) :
    (cli.verifyProof proof output publicKey input server).wp pending done failed ↔
      pending server (.exec (cli.verifyCommand proof output publicKey (toHex input))) ∧
      (∀ result, done true
        (server.log (.io (.exec (cli.verifyCommand proof output publicKey (toHex input))) (Except.ok result)))) ∧
      ∀ error, if error.isNullish then
          failed readMessageError
            (server.log (.io (.exec (cli.verifyCommand proof output publicKey (toHex input))) (Except.error error)))
        else done false
            (server.log (.io (.exec (cli.verifyCommand proof output publicKey (toHex input))) (Except.error error))) := by
  simp only [verifyProof,tryCatch_apply,Prog.wp_handle,M.bind_apply,Prog.wp_bind,Prog.wp_execAsync,
    Prog.wp_logAndReturn,M.pure_apply,Prog.wp_ret]

-- The CLI calls only await: the server is left as it was, with the outcome logged.
theorem generateProof_frame (cli : MangekyouCLIInterface) (input : Bytes) (server : Server) :
    (cli.generateProof input server).wp (fun _ _ => True) (fun _ after => IoLog server after)
      (fun _ after => IoLog server after) := by
  rw [wp_generateProof]
  refine ⟨trivial,fun output => ?_,fun _ => (IoLog.refl server).io _ _⟩
  split <;> exact (IoLog.refl server).io _ _

theorem verifyProof_frame (cli : MangekyouCLIInterface) (proof output publicKey : String) (input : Bytes)
    (server : Server) :
    (cli.verifyProof proof output publicKey input server).wp (fun _ _ => True) (fun _ after => IoLog server after)
      (fun _ after => IoLog server after) := by
  rw [wp_verifyProof]
  refine ⟨trivial,fun _ => (IoLog.refl server).io _ _,fun error => ?_⟩
  split <;> exact (IoLog.refl server).io _ _

end MangekyouCLIInterface

end KamuiVrf
