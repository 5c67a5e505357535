import Nullark.Js.Doubles
import Nullark.Lib.Intervals
import Nullark.Lib.While
import Nullark.Sdk.RecoveryKit

/-! # Fetching logs in chunks

A node answers for a range of blocks at a time, so the packages ask for the logs of a pool chunk by
chunk. The two loops of the SDK go on behind the last block of a chunk, that of the web app adds the
size of a chunk to its first block.

* `fetchChunk_total`, `fetchChunkWeb_total`: the loops end, and their requests follow each other.
* `fetches_cover`: what the three functions request. -/

namespace Nullark.LogFetching

open Nullark.Lib Nullark.Lib.Outcome Nullark.Lib.Intervals Nullark.Lib.While
open Nullark.Lib.Hex hiding value Digits ofNat
open Nullark.Evm.Basic Nullark.Js.Basic Nullark.Js.Bytes Nullark.Js.Numbers Nullark.Js.Doubles
open Nullark.Sdk.RecoveryKit (isBlockQuantity)

/-! ### Nodes -/

inductive TopicFilter
  | topic (topic : Text)
  | oneOf (topics : List Text)

/-- The parameter of `eth_getLogs`. -/
structure LogFilter where
  address : Text
  fromBlock : Text
  toBlock : Text
  topics : List TopicFilter

inductive RpcRequest
  | blockNumber
  | getLogs (filter : LogFilter)

/-- **A node.** What it answers may depend on the requests before. -/
structure Node (Log : Type) where
  blockNumber : List RpcRequest → Throws Text
  getLogs : List RpcRequest → LogFilter → Throws (List Log)

/-- The part of a runtime that is read. -/
structure LogRuntime where
  pool : Text
  poolDeploymentBlock : Text

/-- `input.fromBlock ?? input.runtime.poolDeploymentBlock`. -/
def LogRuntime.firstBlock (runtime : LogRuntime) (fromBlock : Option Text) : Text :=
  fromBlock.getD runtime.poolDeploymentBlock

/-- `bigint | number`. -/
inductive ChunkSize
  | bigint (n : ℤ)
  | number (x : JsNumber)

/-- `BigInt(value)`. -/
def ChunkSize.bigInt : ChunkSize → Throws ℤ
  | .bigint n => .ok n
  | .number x => bigIntOfNumber x

/-- The size of a chunk, or the default of the packages. -/
def chunkSizeOf : Option ChunkSize → Throws ℤ
  | none => .ok 50000
  | some size => size.bigInt

/-- `toBlockQuantity` of the SDK, `blockQuantityHex` of the web app. -/
def toBlockQuantity (value : ℤ) : Text := '0' :: 'x' :: toString16 value

section Topics
variable (keccak256 : Bytes → Bytes32)

def toEventHash (signature : String) : Text := hex32 (keccak256 (Utf8.encode signature.toList))

/-- `ROOT_ACCEPTED_TOPIC`. -/
def rootAcceptedTopic : Text := toEventHash keccak256 "RootAccepted(bytes32,bytes32,bytes32)"

/-- `NOTE_EVENT_TOPICS`, the same in both packages. -/
def noteEventTopics : List Text :=
  ["DepositNoteCreated(bytes32,uint256,bytes,uint16)",
    "PrivateTransferNoteCreated(bytes32,bytes32,uint256,bytes,uint16)",
    "WithdrawalChangeNoteCreated(bytes32,bytes32,uint256,uint256,bytes,uint16)",
    "WithdrawalOutputNoteCreated(bytes32,bytes32,uint256,uint256,bytes,uint16)"].map
    (toEventHash keccak256)

end Topics

/-! ### The loops -/

/-- The blocks of a request. -/
structure BlockRange where
  fromBlock : ℤ
  toBlock : ℤ
  deriving DecidableEq, Repr

/-- What a loop changes. The requests that were sent are what the node has seen. -/
structure FetchState (Log : Type) where
  cursor : ℤ
  logs : List Log
  requests : List RpcRequest

section Code
variable {Log : Type} (node : Node Log) (filter : BlockRange → LogFilter)

/-- The end of a chunk. -/
def chunkEnd (chunkSize latestBlock cursor : ℤ) : ℤ :=
  if cursor + chunkSize > latestBlock then latestBlock else cursor + chunkSize

/-- The logs of a range, behind those fetched before; the cursor goes on. -/
def requestLogs (range : BlockRange) (next : ℤ) (s : FetchState Log) : Throws (FetchState Log) := do
  let result ← node.getLogs s.requests (filter range)
  return { cursor := next, logs := s.logs ++ result
           requests := s.requests ++ [.getLogs (filter range)] }

/-- One round of the loops of the SDK. -/
def fetchChunk (chunkSize latestBlock : ℤ) (s : FetchState Log) : Throws (FetchState Log) :=
  let last := chunkEnd chunkSize latestBlock s.cursor
  requestLogs node filter ⟨s.cursor, last⟩ (last + 1) s

/-- One round of the loop of the web app. -/
def fetchChunkWeb (chunkSize latestBlock : ℤ) (s : FetchState Log) : Throws (FetchState Log) :=
  let last := chunkEnd chunkSize latestBlock s.cursor
  requestLogs node filter ⟨s.cursor, last⟩ (s.cursor + (chunkSize + 1)) s

/-- What is left to fetch, and how. -/
structure Plan where
  chunkSize : ℤ
  fromBlock : ℤ
  latestBlock : ℤ
  requests : List RpcRequest

/-- A loop from the first block of a plan. -/
def runLoop (body : ℤ → ℤ → FetchState Log → Throws (FetchState Log)) (fuel : ℕ) :
    Throws Plan → Option (Throws (FetchState Log))
  | .error e => some (.error e)
  | .ok plan =>
    loop (fun s => s.cursor ≤ plan.latestBlock) (body plan.chunkSize plan.latestBlock) fuel
      { cursor := plan.fromBlock, logs := [], requests := plan.requests }

end Code

/-! ### The functions -/

/-- The filter of the logs of a pool. -/
def logFilter (pool : Text) (topics : List TopicFilter) (range : BlockRange) : LogFilter where
  address := pool
  fromBlock := toBlockQuantity range.fromBlock
  toBlock := toBlockQuantity range.toBlock
  topics := topics

structure FetchRootInput where
  runtime : LogRuntime
  fromBlock : Option Text
  toBlock : Option Text
  logChunkSize : Option ChunkSize

structure FetchNoteInput where
  runtime : LogRuntime
  fromBlock : Option Text
  logChunkSize : Option ChunkSize

structure FetchWebInput where
  pool : Text
  fromBlock : Text
  chunkSize : ℤ

section Functions
variable {Log : Type} (keccak256 : Bytes → Bytes32) (node : Node Log)

/-- The last block of `fetchRootAcceptedLogs`, and the requests that are sent to learn it. -/
def latestBlockOf : Option Text → Throws (Text × List RpcRequest)
  | some toBlock => .ok (toBlock, [])
  | none => do
    let latestBlockHex ← node.blockNumber []
    return (latestBlockHex, [.blockNumber])

/-- What `fetchRootAcceptedLogs` does before its loop. -/
def planRootAcceptedLogs (input : FetchRootInput) : Throws Plan := do
  let chunkSize ← chunkSizeOf input.logChunkSize
  ensure (¬chunkSize ≤ 0) "Expected RootAccepted log chunk size to be positive."
  ensure (isBlockQuantity (input.runtime.firstBlock input.fromBlock))
    "Expected RootAccepted fromBlock to be a hex block quantity."
  ensure (∀ t ∈ input.toBlock, isBlockQuantity t)
    "Expected RootAccepted toBlock to be a hex block quantity."
  let (latestBlockHex, requests) ← latestBlockOf node input.toBlock
  let latestBlock ← stringToBigInt latestBlockHex
  let start ← stringToBigInt (input.runtime.firstBlock input.fromBlock)
  return { chunkSize, fromBlock := start, latestBlock, requests }

/-- **`fetchRootAcceptedLogs`** of the SDK. -/
def fetchRootAcceptedLogs (fuel : ℕ) (input : FetchRootInput) : Option (Throws (FetchState Log)) :=
  runLoop (fetchChunk node
    (logFilter input.runtime.pool [.topic (rootAcceptedTopic keccak256)])) fuel
    (planRootAcceptedLogs node input)

/-- What `fetchNoteEventLogs` does before its loop. -/
def planNoteEventLogs (input : FetchNoteInput) : Throws Plan := do
  let chunkSize ← chunkSizeOf input.logChunkSize
  ensure (¬chunkSize ≤ 0) "Expected note recovery log chunk size to be positive."
  ensure (isBlockQuantity (input.runtime.firstBlock input.fromBlock))
    "Expected note recovery fromBlock to be a hex block quantity."
  let latestBlockHex ← node.blockNumber []
  ensure (isBlockQuantity latestBlockHex)
    "Expected MegaETH RPC eth_blockNumber to return a hex block quantity."
  let latestBlock ← stringToBigInt latestBlockHex
  let start ← stringToBigInt (input.runtime.firstBlock input.fromBlock)
  return { chunkSize, fromBlock := start, latestBlock, requests := [.blockNumber] }

/-- **`fetchNoteEventLogs`** of the SDK. -/
def fetchNoteEventLogs (fuel : ℕ) (input : FetchNoteInput) : Option (Throws (FetchState Log)) :=
  runLoop (fetchChunk node
    (logFilter input.runtime.pool [.oneOf (noteEventTopics keccak256)])) fuel
    (planNoteEventLogs node input)

/-- What `fetchNoteLogsInChunks` does before its loop. It returns early when there is no block. -/
def planNoteLogsInChunks (input : FetchWebInput) : Throws Plan := do
  ensure (¬input.chunkSize ≤ 0) "Expected note recovery log chunk size to be positive."
  let latestBlockHex ← node.blockNumber []
  let latestBlock ← stringToBigInt latestBlockHex
  let startBlock ← stringToBigInt input.fromBlock
  return { chunkSize := input.chunkSize, fromBlock := startBlock, latestBlock
           requests := [.blockNumber] }

/-- **`fetchNoteLogsInChunks`** of the web app. -/
def fetchNoteLogsInChunks (fuel : ℕ) (input : FetchWebInput) :
    Option (Throws (FetchState Log)) :=
  match planNoteLogsInChunks node input with
  | .error e => some (.error e)
  | .ok plan =>
    if plan.latestBlock < plan.fromBlock then
      some (.ok { cursor := plan.fromBlock, logs := [], requests := plan.requests })
    else
      runLoop (fetchChunkWeb node
        (logFilter input.pool [.oneOf (noteEventTopics keccak256)])) fuel (.ok plan)

end Functions

/-! ### Chunks -/

/-- **The ranges are chunks** of the blocks from `start` to `latest`. -/
structure Chunked (start latest chunkSize : ℤ) (ranges : List BlockRange) : Prop where
  nonempty : ∀ r ∈ ranges, r.fromBlock ≤ r.toBlock
  consecutive : ranges.IsChain fun r s => s.fromBlock = r.toBlock + 1
  span : ∀ r ∈ ranges, r.toBlock - r.fromBlock + 1 ≤ chunkSize + 1
  once : ∀ block, ranges.countP (fun r => r.fromBlock ≤ block ∧ block ≤ r.toBlock) =
    if start ≤ block ∧ block ≤ latest then 1 else 0

/-- The logs a node answers with, one filter after the other. -/
def gather {Log : Type} (node : Node Log) : List RpcRequest → List LogFilter → Throws (List Log)
  | _, [] => .ok []
  | sent, filter :: filters => do
    let logs ← node.getLogs sent filter
    let rest ← gather node (sent ++ [.getLogs filter]) filters
    return logs ++ rest

/-- **A fetch that ends**: it has sent some requests, then one for each chunk, and it returns what
the node answered. -/
def Fetches {Log : Type} (node : Node Log) (filter : BlockRange → LogFilter)
    (sent : List RpcRequest) (start latest chunkSize : ℤ)
    (result : Option (Throws (FetchState Log))) : Prop :=
  ∃ ranges s, Chunked start latest chunkSize ranges ∧ result = some (.ok s) ∧
    s.requests = sent ++ ranges.map (fun r => .getLogs (filter r)) ∧
    gather node sent (ranges.map filter) = .ok s.logs

section Loops
variable {Log : Type} {node : Node Log} {filter : BlockRange → LogFilter}
  {sent : List RpcRequest} {start latest chunkSize : ℤ}

theorem gather_concat {filter : LogFilter} : ∀ {filters : List LogFilter} {sent : List RpcRequest}
    {logs result : List Log}, gather node sent filters = .ok logs →
    node.getLogs (sent ++ filters.map .getLogs) filter = .ok result →
    gather node sent (filters ++ [filter]) = .ok (logs ++ result)
  | [], sent, logs, result, hlogs, hresult => by
    obtain rfl := Except.ok.inj hlogs
    rw [List.map_nil, List.append_nil] at hresult
    rw [List.nil_append, gather, hresult, ok_bind, gather, ok_bind, List.append_nil]
    rfl
  | f :: filters, sent, logs, result, hlogs, hresult => by
    obtain ⟨first, hfirst, hlogs⟩ := bind_eq_ok.mp hlogs
    obtain ⟨rest, hrest, hlogs⟩ := bind_eq_ok.mp hlogs
    obtain rfl := pure_eq_ok.mp hlogs
    rw [List.map_cons, List.append_cons] at hresult
    rw [List.cons_append, gather, hfirst, ok_bind, gather_concat hrest hresult, ok_bind,
      List.append_assoc]
    rfl

/-- **What has been fetched** before the block `next`. -/
def Fetched (node : Node Log) (filter : BlockRange → LogFilter) (sent : List RpcRequest)
    (start chunkSize next : ℤ) (s : FetchState Log) : Prop :=
  ∃ ranges, Tiles BlockRange.fromBlock BlockRange.toBlock start ranges next ∧
    (∀ r ∈ ranges, r.toBlock - r.fromBlock + 1 ≤ chunkSize + 1) ∧
    s.requests = sent ++ ranges.map (fun r => .getLogs (filter r)) ∧
    gather node sent (ranges.map filter) = .ok s.logs

/-- **One request** fetches one range more. -/
theorem requestLogs_spec (hnode : ∀ sent filter, ∃ logs, node.getLogs sent filter = .ok logs)
    {s : FetchState Log} (range : BlockRange) (next : ℤ)
    (h : Fetched node filter sent start chunkSize range.fromBlock s)
    (hle : range.fromBlock ≤ range.toBlock)
    (hspan : range.toBlock - range.fromBlock + 1 ≤ chunkSize + 1) :
    ∃ s', requestLogs node filter range next s = .ok s' ∧
      Fetched node filter sent start chunkSize (range.toBlock + 1) s' ∧ s'.cursor = next := by
  obtain ⟨ranges, htiles, hspans, hrequests, hlogs⟩ := h
  obtain ⟨result, hresult⟩ := hnode s.requests (filter range)
  refine ⟨⟨next, s.logs ++ result, s.requests ++ [.getLogs (filter range)]⟩, ?_,
    ⟨ranges ++ [range], htiles.concat rfl hle, ?_, ?_, ?_⟩, rfl⟩
  · rw [requestLogs, hresult, ok_bind]
    rfl
  · intro r hr
    rcases List.mem_append.mp hr with hr | hr
    · exact hspans r hr
    · rwa [List.mem_singleton.mp hr]
  · rw [hrequests, List.map_append, List.append_assoc]
    rfl
  · have hsent : s.requests = sent ++ (ranges.map filter).map .getLogs := by
      rw [hrequests, List.map_map]
      rfl
    rw [hsent] at hresult
    rw [List.map_append]
    exact gather_concat hlogs hresult

/-- What has been fetched up to the latest block are chunks. -/
theorem fetches_of_fetched {s : FetchState Log} {next : ℤ}
    (h : Fetched node filter sent start chunkSize next s) (hnext : next = max start (latest + 1)) :
    Fetches node filter sent start latest chunkSize (some (.ok s)) := by
  obtain ⟨ranges, htiles, hspans, hrequests, hlogs⟩ := h
  refine ⟨ranges, s, ⟨htiles.nonempty, htiles.consecutive, hspans, fun block => ?_⟩, rfl, hrequests,
    hlogs⟩
  rw [htiles.count]
  split_ifs <;> omega

theorem fetched_nothing : Fetched node filter sent start chunkSize start
    { cursor := start, logs := [], requests := sent } :=
  ⟨[], rfl, fun _ h => absurd h List.not_mem_nil, (List.append_nil _).symm, rfl⟩

section Total
variable (hnode : ∀ sent filter, ∃ logs, node.getLogs sent filter = .ok logs)
  (hsize : 0 < chunkSize) {fuel : ℕ}
include hnode hsize

/-- **The loops of the SDK end.** -/
theorem fetchChunk_total (hfuel : (latest + 1 - start).toNat ≤ fuel) :
    Fetches node filter sent start latest chunkSize
      (runLoop (fetchChunk node filter) fuel (.ok ⟨chunkSize, start, latest, sent⟩)) := by
  obtain ⟨s, hrun, ⟨hfetched, hbound⟩, hdone⟩ := @loop_total (FetchState Log) String
    (fun s => s.cursor ≤ latest) _ (fetchChunk node filter chunkSize latest)
    (fun s => Fetched node filter sent start chunkSize s.cursor s ∧
      start ≤ s.cursor ∧ s.cursor ≤ max start (latest + 1))
    (fun s => (latest + 1 - s.cursor).toNat)
    (by
      rintro s ⟨hfetched, hstart, hbound⟩ hcond
      have hend : s.cursor ≤ chunkEnd chunkSize latest s.cursor ∧
          chunkEnd chunkSize latest s.cursor ≤ latest ∧
          chunkEnd chunkSize latest s.cursor ≤ s.cursor + chunkSize := by
        unfold chunkEnd
        split_ifs <;> omega
      obtain ⟨s', hstep, hfetched', hcursor⟩ := requestLogs_spec hnode
        ⟨s.cursor, chunkEnd chunkSize latest s.cursor⟩
        (chunkEnd chunkSize latest s.cursor + 1) hfetched hend.1 (by dsimp only; omega)
      refine ⟨s', hstep, ⟨?_, ?_, ?_⟩, ?_⟩
      · rwa [hcursor]
      all_goals rw [hcursor]; omega)
    fuel { cursor := start, logs := [], requests := sent }
    ⟨fetched_nothing, le_rfl, le_max_left _ _⟩ hfuel
  rw [runLoop, hrun]
  exact fetches_of_fetched hfetched (by omega)

/-- **The loop of the web app ends.** -/
theorem fetchChunkWeb_total (hle : start ≤ latest) (hfuel : (latest + 1 - start).toNat ≤ fuel) :
    Fetches node filter sent start latest chunkSize
      (runLoop (fetchChunkWeb node filter) fuel (.ok ⟨chunkSize, start, latest, sent⟩)) := by
  obtain ⟨s, hrun, hfetched, hdone⟩ := @loop_total (FetchState Log) String
    (fun s => s.cursor ≤ latest) _ (fetchChunkWeb node filter chunkSize latest)
    (fun s => Fetched node filter sent start chunkSize (min s.cursor (latest + 1)) s)
    (fun s => (latest + 1 - s.cursor).toNat)
    (by
      intro s hfetched hcond
      have hend : s.cursor ≤ chunkEnd chunkSize latest s.cursor ∧
          chunkEnd chunkSize latest s.cursor ≤ s.cursor + chunkSize ∧
          chunkEnd chunkSize latest s.cursor + 1 =
            min (s.cursor + (chunkSize + 1)) (latest + 1) := by
        unfold chunkEnd
        split_ifs <;> omega
      rw [min_eq_left (by omega)] at hfetched
      obtain ⟨s', hstep, hfetched', hcursor⟩ := requestLogs_spec hnode
        ⟨s.cursor, chunkEnd chunkSize latest s.cursor⟩
        (s.cursor + (chunkSize + 1)) hfetched hend.1 (by dsimp only; omega)
      refine ⟨s', hstep, ?_, ?_⟩
      · rwa [hcursor, ← hend.2.2]
      · rw [hcursor]
        omega)
    fuel { cursor := start, logs := [], requests := sent }
    (by rw [min_eq_left (by dsimp only; omega)]; exact fetched_nothing) hfuel
  rw [runLoop, hrun]
  exact fetches_of_fetched hfetched (by omega)

end Total

end Loops

/-! ### The three functions -/

/-- The text of a block, in any spelling. -/
def IsBlock (t : Text) (block : ℕ) : Prop := isBlockQuantity t ∧ hexNat t = block

theorem stringToBigInt_of_isBlock {t : Text} {block : ℕ} (h : IsBlock t block) :
    stringToBigInt t = .ok (block : ℤ) := by
  obtain ⟨hquantity, rfl⟩ := h
  rcases hquantity with rfl | ⟨htake, hne, -, hdigits⟩
  · exact stringToBigInt_of_isHexOfLength (n := 1) (by decide) (by decide)
  · have hsplit : t = '0' :: 'x' :: t.drop 2 := by
      conv_lhs => rw [← List.take_append_drop 2 t, htake]
      rfl
    have hlength : 0 < (t.drop 2).length := List.length_pos_iff.mpr hne
    exact stringToBigInt_of_isHexOfLength hlength
      (isHexOfLength_iff.mpr ⟨t.drop 2, hsplit, rfl, hdigits⟩)

section Functions
variable {Log : Type} {node : Node Log} {start latest : ℕ} {chunkSize : ℤ}

theorem planRootAcceptedLogs_of_isBlock {input : FetchRootInput} {latestBlockHex : Text}
    {sent : List RpcRequest} (hread : chunkSizeOf input.logChunkSize = .ok chunkSize)
    (hsize : 0 < chunkSize)
    (hfrom : IsBlock (input.runtime.firstBlock input.fromBlock) start)
    (hto : ∀ t ∈ input.toBlock, isBlockQuantity t)
    (hlatest : latestBlockOf node input.toBlock = .ok (latestBlockHex, sent))
    (hblock : IsBlock latestBlockHex latest) :
    planRootAcceptedLogs node input = .ok ⟨chunkSize, start, latest, sent⟩ := by
  unfold planRootAcceptedLogs
  rw [hread, ok_bind, ensure_of (by omega), ok_bind, ensure_of hfrom.1, ok_bind, ensure_of hto,
    ok_bind, hlatest, ok_bind]
  dsimp only
  rw [stringToBigInt_of_isBlock hblock, ok_bind, stringToBigInt_of_isBlock hfrom, ok_bind]
  rfl

theorem planNoteEventLogs_of_isBlock {input : FetchNoteInput} {latestBlockHex : Text}
    (hread : chunkSizeOf input.logChunkSize = .ok chunkSize) (hsize : 0 < chunkSize)
    (hfrom : IsBlock (input.runtime.firstBlock input.fromBlock) start)
    (hlatest : node.blockNumber [] = .ok latestBlockHex) (hblock : IsBlock latestBlockHex latest) :
    planNoteEventLogs node input = .ok ⟨chunkSize, start, latest, [.blockNumber]⟩ := by
  unfold planNoteEventLogs
  rw [hread, ok_bind, ensure_of (by omega), ok_bind, ensure_of hfrom.1, ok_bind, hlatest, ok_bind,
    ensure_of hblock.1, ok_bind, stringToBigInt_of_isBlock hblock, ok_bind,
    stringToBigInt_of_isBlock hfrom, ok_bind]
  rfl

theorem planNoteLogsInChunks_of_isBlock {input : FetchWebInput} {latestBlockHex : Text}
    (hsize : 0 < input.chunkSize) (hfrom : IsBlock input.fromBlock start)
    (hlatest : node.blockNumber [] = .ok latestBlockHex) (hblock : IsBlock latestBlockHex latest) :
    planNoteLogsInChunks node input = .ok ⟨input.chunkSize, start, latest, [.blockNumber]⟩ := by
  unfold planNoteLogsInChunks
  rw [ensure_of (by omega), ok_bind, hlatest, ok_bind, stringToBigInt_of_isBlock hblock, ok_bind,
    stringToBigInt_of_isBlock hfrom, ok_bind]
  rfl

/-- The early return of the web app asks for no chunk. -/
theorem fetches_nothing {filter : BlockRange → LogFilter} {sent : List RpcRequest}
    {start latest : ℤ} (h : latest < start) :
    Fetches node filter sent start latest chunkSize
      (some (.ok { cursor := start, logs := [], requests := sent })) :=
  fetches_of_fetched fetched_nothing (by omega)

/-- **All three functions cover the blocks** from the first to the latest one with chunks, if the
node answers. -/
theorem fetches_cover (keccak256 : Bytes → Bytes32)
    (hnode : ∀ sent filter, ∃ logs, node.getLogs sent filter = .ok logs) (hsize : 0 < chunkSize)
    {fuel : ℕ} (hfuel : latest + 1 - start ≤ fuel) {latestBlockHex : Text}
    (hblock : IsBlock latestBlockHex latest) :
    (∀ (input : FetchRootInput) (sent : List RpcRequest),
      chunkSizeOf input.logChunkSize = .ok chunkSize →
      IsBlock (input.runtime.firstBlock input.fromBlock) start →
      latestBlockOf node input.toBlock = .ok (latestBlockHex, sent) →
      Fetches node (logFilter input.runtime.pool [.topic (rootAcceptedTopic keccak256)]) sent
        start latest chunkSize (fetchRootAcceptedLogs keccak256 node fuel input)) ∧
    (∀ input : FetchNoteInput, chunkSizeOf input.logChunkSize = .ok chunkSize →
      IsBlock (input.runtime.firstBlock input.fromBlock) start →
      node.blockNumber [] = .ok latestBlockHex →
      Fetches node (logFilter input.runtime.pool [.oneOf (noteEventTopics keccak256)])
        [.blockNumber] start latest chunkSize (fetchNoteEventLogs keccak256 node fuel input)) ∧
    (∀ input : FetchWebInput, input.chunkSize = chunkSize → IsBlock input.fromBlock start →
      node.blockNumber [] = .ok latestBlockHex →
      Fetches node (logFilter input.pool [.oneOf (noteEventTopics keccak256)])
        [.blockNumber] start latest chunkSize
        (fetchNoteLogsInChunks keccak256 node fuel input)) := by
  have hrounds : ((latest : ℤ) + 1 - start).toNat ≤ fuel := by omega
  refine ⟨fun input sent hread hfrom hlatest => ?_, fun input hread hfrom hlatest => ?_,
    fun input hread hfrom hlatest => ?_⟩
  · have hto : ∀ t ∈ input.toBlock, isBlockQuantity t := by
      intro t ht
      rw [Option.mem_def.mp ht] at hlatest
      obtain ⟨rfl, -⟩ := Prod.mk.inj (Except.ok.inj hlatest)
      exact hblock.1
    unfold fetchRootAcceptedLogs
    rw [planRootAcceptedLogs_of_isBlock hread hsize hfrom hto hlatest hblock]
    exact fetchChunk_total hnode hsize hrounds
  · unfold fetchNoteEventLogs
    rw [planNoteEventLogs_of_isBlock hread hsize hfrom hlatest hblock]
    exact fetchChunk_total hnode hsize hrounds
  · subst hread
    unfold fetchNoteLogsInChunks
    rw [planNoteLogsInChunks_of_isBlock hsize hfrom hlatest hblock]
    dsimp only
    split_ifs with hearly
    · exact fetches_nothing hearly
    · exact fetchChunkWeb_total hnode hsize (by omega) hrounds

end Functions

/-! ### A node -/

/-- A node with the blocks up to `0x16`, that answers with the first block of a request. -/
def sampleNode : Node Text where
  blockNumber := fun _ => .ok "0x16".toList
  getLogs := fun _ filter => .ok [filter.fromBlock]

/-- The blocks from 9 to 22, in chunks of five. -/
theorem fetches_cover_sample :
    Fetches sampleNode (logFilter "0x5".toList [.oneOf (noteEventTopics Keccak.keccak256)])
      [.blockNumber] (9 : ℕ) (22 : ℕ) 4 (fetchNoteEventLogs Keccak.keccak256 sampleNode 14
        ⟨⟨"0x5".toList, "0x9".toList⟩, none, some (.bigint 4)⟩) :=
  have hblock : IsBlock "0x16".toList 22 := ⟨by decide, by decide⟩
  (fetches_cover Keccak.keccak256 (fun _ filter => ⟨[filter.fromBlock], rfl⟩) (by decide)
    (by decide) hblock).2.1
    ⟨⟨"0x5".toList, "0x9".toList⟩, none, some (.bigint 4)⟩ rfl ⟨by decide, by decide⟩ rfl

end Nullark.LogFetching
