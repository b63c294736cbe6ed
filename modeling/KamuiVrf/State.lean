import KamuiVrf.Cli

namespace KamuiVrf

-- What a `StandaloneVRFServer` holds fixed after `initialize()`, with the web3.js
-- helpers it calls without awaiting the network.
structure Context where
  vrfProgramId : Bytes
  oraclePubkey : Bytes
  cli : MangekyouCLIInterface
  pollingInterval : Nat
  -- `PublicKey.findProgramAddress(seeds, programId)`: deterministic, no I/O
  findProgramAddress : List Bytes → Bytes → Bytes
  -- what `transaction.sign(...)` or `transaction.serialize()` throws, if anything
  serializeError : Transaction → Option JsValue

def systemProgramId : Bytes := List.replicate 32 0

-- `Buffer.from(text)`
def utf8Bytes (text : String) : Bytes := text.toList.flatMap String.utf8EncodeChar

-- `new PublicKey(buffer).toBuffer()` for at most 32 bytes: zero-padded in front.
def publicKeyOfBytes (data : Bytes) : Bytes := List.replicate (32 - data.length) 0 ++ data

theorem publicKeyOfBytes_of_length {data : Bytes} (width : data.length = 32) : publicKeyOfBytes data = data := by
  simp [publicKeyOfBytes,width]

namespace Server

def deleteProcessed (server : Server) (key : Bytes) : Server :=
  { server with processedRequests := fun other => if other = key then none else server.processedRequests other }

def setProcessed (server : Server) (key : Bytes) (info : ProcessedInfo) : Server :=
  { server with processedRequests := fun other => if other = key then some info else server.processedRequests other }

def countProcessed (server : Server) : Server :=
  { server with stats := { server.stats with requestsProcessed := server.stats.requestsProcessed + 1 } }

def countFulfilled (server : Server) : Server :=
  { server with stats := { server.stats with requestsFulfilled := server.stats.requestsFulfilled + 1 } }

def countError (server : Server) : Server :=
  { server with stats := { server.stats with errors := server.stats.errors + 1 } }

@[simp] theorem deleteProcessed_processedRequests (server : Server) (key other : Bytes) :
    (server.deleteProcessed key).processedRequests other = if other = key then none else server.processedRequests other :=
  rfl
@[simp] theorem deleteProcessed_stats (server : Server) (key : Bytes) : (server.deleteProcessed key).stats = server.stats :=
  rfl
@[simp] theorem deleteProcessed_history (server : Server) (key : Bytes) :
    (server.deleteProcessed key).history = server.history := rfl
@[simp] theorem deleteProcessed_isRunning (server : Server) (key : Bytes) :
    (server.deleteProcessed key).isRunning = server.isRunning := rfl

@[simp] theorem setProcessed_processedRequests (server : Server) (key : Bytes) (info : ProcessedInfo) (other : Bytes) :
    (server.setProcessed key info).processedRequests other = if other = key then some info else server.processedRequests other :=
  rfl
@[simp] theorem setProcessed_stats (server : Server) (key : Bytes) (info : ProcessedInfo) :
    (server.setProcessed key info).stats = server.stats := rfl
@[simp] theorem setProcessed_history (server : Server) (key : Bytes) (info : ProcessedInfo) :
    (server.setProcessed key info).history = server.history := rfl
@[simp] theorem setProcessed_isRunning (server : Server) (key : Bytes) (info : ProcessedInfo) :
    (server.setProcessed key info).isRunning = server.isRunning := rfl

@[simp] theorem countProcessed_processedRequests (server : Server) :
    server.countProcessed.processedRequests = server.processedRequests := rfl
@[simp] theorem countProcessed_stats (server : Server) :
    server.countProcessed.stats = { server.stats with requestsProcessed := server.stats.requestsProcessed + 1 } := rfl
@[simp] theorem countProcessed_history (server : Server) : server.countProcessed.history = server.history := rfl
@[simp] theorem countProcessed_isRunning (server : Server) : server.countProcessed.isRunning = server.isRunning := rfl

@[simp] theorem countFulfilled_processedRequests (server : Server) :
    server.countFulfilled.processedRequests = server.processedRequests := rfl
@[simp] theorem countFulfilled_stats (server : Server) :
    server.countFulfilled.stats = { server.stats with requestsFulfilled := server.stats.requestsFulfilled + 1 } := rfl
@[simp] theorem countFulfilled_history (server : Server) : server.countFulfilled.history = server.history := rfl
@[simp] theorem countFulfilled_isRunning (server : Server) : server.countFulfilled.isRunning = server.isRunning := rfl

@[simp] theorem countError_processedRequests (server : Server) :
    server.countError.processedRequests = server.processedRequests := rfl
@[simp] theorem countError_stats (server : Server) :
    server.countError.stats = { server.stats with errors := server.stats.errors + 1 } := rfl
@[simp] theorem countError_history (server : Server) : server.countError.history = server.history := rfl
@[simp] theorem countError_isRunning (server : Server) : server.countError.isRunning = server.isRunning := rfl

end Server

-- `new StandaloneVRFServer()`: an empty dedup map and zero counters.
def initialServer (startTime : Nat) : Server := ⟨fun _ => none,false,⟨startTime,0,0,0⟩,[]⟩

end KamuiVrf
