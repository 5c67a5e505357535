import Nullark.Indexer.Accepted
import Nullark.Lib.Decimal

/-! # The paths the recovery API serves

The handler answers from three structures that change apart from each other: the Merkle index with
its cache, the checked ranges and the accepted roots.

* `Sound`: what holds of them after any batches and requests; `sound_ingestPoolLogs`,
  `sound_merklePath`: the two steps.
* `served_paths_sound`: a path that is served for a runtime of v1.2 is the path of the commitment to
  an accepted root, and no block is missing. -/

namespace Nullark.Indexer.RecoveryApi

open Nullark.Lib.Outcome Nullark.Lib.Hex Nullark.Lib.Ordered Nullark.Lib.Merkle.Tree
open Nullark.Js.Basic
open Nullark.Indexer.MerklePaths Nullark.Indexer.Ranges
open Nullark.Indexer.LogIngest Nullark.Indexer.Accepted

/-! ### The code -/

structure V12RecoveryIndexerReadinessEvidence where
  runtimeId : Text
  chainId : ℕ
  pool : Text
  status : Text
  mainnet4326Blocked : Bool
  finalReadiness : Option Bool
  evidenceSha256 : Text
  canonicalRuntimeSource : Option Text
  deriving DecidableEq, Repr

def recoveryIndexerReorgLimitation : String :=
  "Recovery responses are derived from indexed chain logs and accepted roots; " ++
    "callers must rescan after reorg or finality-window changes."

def v12RecoveryIndexerReadinessBlocker : String :=
  "v1.2 recovery indexer remains blocked until matching readiness evidence is present."

def maxRecoveryApiMissingRanges : ℕ := 25

def v12MainnetPool : Text := "0x08bA57aA9Bc13Ccaf0dda0Fb7Cd7A2570b0FE4d8".toList

def v12ApprovedPublicRuntimeHash : Text :=
  "0x66def458e16ea6ed9d1df9c15a79ec83c23d4d4ccdec631d868f614cc0e94ff4".toList

def v12ApprovedTrustedSetupRecordHash : Text :=
  "0xb87aa47a407f0347a920fcebe76f84d402be8bd5e82f5fe5980ffea557bfa996".toList

structure V12RuntimeBinding where
  runtimeId : Text
  chainId : ℕ
  pool : Text
  approvedEvidenceHashes : List Text
  deriving DecidableEq, Repr

def v12RuntimeBindings : List V12RuntimeBinding :=
  [{ runtimeId := "nullark-v1.2-mainnet".toList
     chainId := 4326
     pool := v12MainnetPool
     approvedEvidenceHashes :=
       [v12ApprovedPublicRuntimeHash, v12ApprovedTrustedSetupRecordHash] },
   { runtimeId := "nullark-v1.2-fee-governance".toList
     chainId := 4326
     pool := v12MainnetPool
     approvedEvidenceHashes :=
       [v12ApprovedPublicRuntimeHash, v12ApprovedTrustedSetupRecordHash] }]

/-- What the handler is created with, apart from the state of the indexer. -/
structure HandlerOptions where
  chainId : ℕ
  pool : Text
  originalPool : Option Text
  runtimeId : Option Text
  v12ReadinessEvidence : Option V12RecoveryIndexerReadinessEvidence
  latestCheckedBlock : ℤ
  scanStartBlock : Option ℤ

/-- **The input of `createRecoveryApiHandlers`.** -/
structure HandlerInput extends HandlerOptions where
  merklePaths : MerklePathIndex
  checkedRanges : Option RangeTracker
  acceptedRoots : Option (JsMap Text RootRecord)

/-- What `missingRangeStatus` returns, if it does not return `{}`. -/
structure RangeStatus where
  partialSync : Bool
  missingRangeCount : ℕ
  missingRanges : List (String × String)
  missingRangesTruncated : Option Bool
  deriving DecidableEq, Repr

/-- **The body of a response**: the members that some branch of the handler sets. -/
structure RecoveryApiBody where
  error : Option String := none
  runtimeId : Option Text := none
  productionReady : Option Bool := none
  sourceOfTruth : Option String := none
  limitations : Option (List String) := none
  rangeStatus : Option RangeStatus := none
  path : Option MerklePathResult := none
  pool : Option Text := none
  originalPool : Option Text := none
  chainId : Option ℕ := none
  latestCheckedBlock : Option String := none
  deriving DecidableEq

structure RecoveryApiResponse where
  status : ℕ
  body : RecoveryApiBody
  deriving DecidableEq

def hasWalletLinkedDiscoveryField (query : JsMap Text Text) : Bool :=
  let forbiddenFields : List Text :=
    ["discoveryTag".toList, "futureNullifier".toList, "ownerAddress".toList, "ownerTag".toList,
      "publicDiscoveryTag".toList, "stableDiscoveryTag".toList, "walletAddress".toList,
      "walletDiscoveryTag".toList, "walletTag".toList]
  (keys query).any fun key =>
    let normalizedKey := lower key
    decide (key ∈ forbiddenFields ∨
      ("wallet".toList <:+: normalizedKey ∨ "discovery".toList <:+: normalizedKey ∨
        "tag".toList <:+: normalizedKey) ∨
      "nullifier".toList <:+: normalizedKey)

structure V12Runtime where
  binding : Option V12RuntimeBinding
  blocked : Bool

def getV12RuntimeBinding (input : HandlerOptions) : V12Runtime :=
  match input.runtimeId with
  | none => ⟨none, false⟩
  | some runtimeId =>
    if runtimeId = "nullark-v1.1-mainnet".toList then ⟨none, false⟩
    else
      match v12RuntimeBindings.find? fun candidate => decide (candidate.runtimeId = runtimeId ∧
        candidate.chainId = input.chainId ∧ lower candidate.pool = lower input.pool) with
      | some binding => ⟨some binding, false⟩
      | none => ⟨none, decide ("v1.2".toList <:+: runtimeId)⟩

def hasMatchingV12ReadinessEvidence (input : HandlerOptions) (binding : V12RuntimeBinding) : Bool :=
  match input.v12ReadinessEvidence with
  | none => false
  | some evidence => decide (evidence.runtimeId = binding.runtimeId ∧
      evidence.status = "ready".toList ∧ evidence.mainnet4326Blocked = false ∧
      evidence.finalReadiness = some true ∧ evidence.chainId = binding.chainId ∧
      lower evidence.pool = lower binding.pool ∧
      (∃ hash ∈ binding.approvedEvidenceHashes, lower hash = lower evidence.evidenceSha256) ∧
      (evidence.canonicalRuntimeSource = none ∨
        evidence.canonicalRuntimeSource = some "public-artifacts/current.json".toList ∨
        evidence.canonicalRuntimeSource =
          some "apps/web/public/proving/trusted-setup-record.json".toList))

def missingRangeStatus (input : HandlerInput) : Option RangeStatus :=
  match input.checkedRanges with
  | none => none
  | some checkedRanges =>
    let scanStartBlock := input.scanStartBlock.getD 0
    if input.latestCheckedBlock < scanStartBlock then some ⟨true, 0, [], none⟩
    else
      let missingRanges := findMissingRanges checkedRanges ⟨scanStartBlock, input.latestCheckedBlock⟩
      let visibleMissingRanges := missingRanges.take maxRecoveryApiMissingRanges
      some {
        partialSync := decide (0 < missingRanges.length)
        missingRangeCount := missingRanges.length
        missingRanges := visibleMissingRanges.map fun range =>
          (toString range.fromBlock, toString range.toBlock)
        missingRangesTruncated :=
          if missingRanges.length > visibleMissingRanges.length then some true else none }

/-- The checks for a runtime with a binding: the response that refuses, if there is one. -/
def refuseV12 (input : HandlerInput) : Option RecoveryApiResponse :=
  let rangeStatus := missingRangeStatus input
  if rangeStatus.map RangeStatus.partialSync ≠ some false then
    some ⟨503, {
      error := some "v1.2 recovery indexer requires complete checked ranges before serving paths"
      sourceOfTruth := some "chain-logs"
      limitations := some [recoveryIndexerReorgLimitation]
      rangeStatus }⟩
  else if (input.acceptedRoots.getD []).length = 0 then
    some ⟨503, {
      error := some "v1.2 recovery indexer requires accepted-root evidence before serving paths"
      sourceOfTruth := some "chain-logs"
      limitations := some [recoveryIndexerReorgLimitation] }⟩
  else none

/-- The `try` at the end, with the index it leaves. -/
def servePath (input : HandlerInput) (commitment : Text) : MerklePathIndex × RecoveryApiResponse :=
  match getMerklePathForCommitment input.merklePaths commitment with
  | .ok (merklePaths, path) =>
    if ∃ acceptedRoots ∈ input.acceptedRoots, get acceptedRoots (lower path.root) = none then
      (merklePaths, ⟨409, {
        error := some "Merkle path root is not confirmed by indexed chain logs"
        sourceOfTruth := some "chain-logs"
        limitations := some [recoveryIndexerReorgLimitation] }⟩)
    else
      (merklePaths, ⟨200, {
        path := some path
        pool := some input.pool
        originalPool := input.originalPool.filter (· ≠ [])
        chainId := some input.chainId
        runtimeId := input.runtimeId.filter (· ≠ [])
        latestCheckedBlock := some (toString input.latestCheckedBlock)
        limitations := some [recoveryIndexerReorgLimitation] }⟩)
  | .error message =>
    (input.merklePaths, ⟨404, {
      error := some message
      sourceOfTruth := some "chain-logs"
      limitations := some [recoveryIndexerReorgLimitation]
      rangeStatus := missingRangeStatus input }⟩)

/-- **The handler `merklePath`**: the index it leaves, whose cache it may change, and the response. -/
def merklePath (input : HandlerInput) (query : JsMap Text Text) :
    MerklePathIndex × RecoveryApiResponse :=
  if hasWalletLinkedDiscoveryField query then
    (input.merklePaths, ⟨400, { error := some "wallet-linked discovery fields are not accepted" }⟩)
  else if get query "chainId".toList ≠ some (Lib.Decimal.ofNat input.chainId) then
    (input.merklePaths, ⟨400, { error := some "unsupported chain" }⟩)
  else
    match get query "pool".toList, get query "commitment".toList with
    | some pool, some commitment =>
      if lower pool ≠ lower input.pool then
        (input.merklePaths, ⟨404, { error := some "pool not indexed" }⟩)
      else
        let v12Runtime := getV12RuntimeBinding input.toHandlerOptions
        if v12Runtime.blocked ∨ ∃ binding ∈ v12Runtime.binding,
            ¬hasMatchingV12ReadinessEvidence input.toHandlerOptions binding then
          (input.merklePaths, ⟨503, {
            error := some v12RecoveryIndexerReadinessBlocker
            runtimeId := input.runtimeId
            productionReady := some false
            sourceOfTruth := some "chain-logs"
            limitations := some [recoveryIndexerReorgLimitation] }⟩)
        else if ¬isHexBytes32 commitment then
          (input.merklePaths, ⟨400, { error := some "invalid commitment" }⟩)
        else
          match if v12Runtime.binding.isSome then refuseV12 input else none with
          | some response => (input.merklePaths, response)
          | none => servePath input commitment
    | _, _ => (input.merklePaths, ⟨400, { error := some "invalid recovery query" }⟩)

/-! ### Paths of the index -/

/-- The hash is one of the words that the texts stand for: the letter case does not matter. -/
def SpellingFree (hashPair : HashPair) : Prop :=
  ∀ l l' r r', lower l = lower l' → lower r = lower r' → hashPair l r = hashPair l' r'

/-- **Hashing along a path**, from the leaf up. -/
def hashAlong (hashPair : HashPair) : Text → List Text → List ℤ → Text
  | node, sibling :: pathElements, bit :: pathIndices =>
    hashAlong hashPair (if bit = 0 then hashPair node sibling else hashPair sibling node)
      pathElements pathIndices
  | node, _, _ => node

/-- **A path leads from its commitment to its root.** -/
structure PathValid (hashPair : HashPair) (depth : ℕ) (path : MerklePathResult) : Prop where
  pathElements : path.pathElements.length = depth
  pathIndices : path.pathIndices.length = depth
  root : hashAlong hashPair path.commitment path.pathElements path.pathIndices = path.root

section Paths
variable {hashPair : HashPair} {index index' : MerklePathIndex} {texts : ℕ → Option Text}

theorem hashAlong_eq_climb (hashPair : HashPair) : ∀ (path : List Text) (x : Text) (i : ℕ),
    hashAlong hashPair x path ((indexBits i path.length).map (Nat.cast : ℕ → ℤ)) =
      climb hashPair x i path
  | [], _, _ => rfl
  | s :: path, x, i => by
    have hbit : ((i % 2 : ℕ) : ℤ) = 0 ↔ i % 2 = 0 := by exact_mod_cast Iff.rfl
    rw [List.length_cons, indexBits, List.map_cons, hashAlong, climb, hashAlong_eq_climb hashPair]
    simp only [hbit, join]

/-- The spelling of a leaf is lost on the first level. -/
theorem climb_spelling (hfree : SpellingFree hashPair) {x x' : Text} (h : lower x = lower x')
    (i : ℕ) : ∀ {path : List Text}, path ≠ [] → climb hashPair x i path = climb hashPair x' i path
  | s :: path, _ => by
    have hjoin : join hashPair x i s = join hashPair x' i s := by
      unfold join
      rw [hfree x x' s s h rfl, hfree s s x x' rfl h]
    rw [climb, climb, hjoin]

/-- **What holds of an index** that the handler reads: it holds texts, in the tree, and what it
caches is right and stands under its commitment. -/
structure SoundIndex (hashPair : HashPair) (depth : ℕ) (index : MerklePathIndex) : Prop where
  hash_eq : index.hashPair = hashPair
  depth_eq : index.depth = depth
  holds : ∃ texts, HoldsTexts index texts ∧ Cached index texts ∧
    ∀ i c, texts i = some c → i < 2 ^ depth
  spelled : ∀ t r, get index.pathCache t = some r → lower r.commitment = t

/-- The path of a leaf leads from it to the root. -/
theorem pathValid_of_pathIn (hfree : SpellingFree index.hashPair) {i : ℕ} {c : Text}
    (hc : texts i = some c) (hi : i < 2 ^ index.depth) (hdepth : 0 < index.depth)
    {r : MerklePathResult} (hpath : PathIn index texts i r) (hr : lower r.commitment = lower c) :
    PathValid index.hashPair index.depth r := by
  have hlength : r.pathElements.length = index.depth := by
    rw [hpath.pathElements, length_siblings]
  have hne : r.pathElements ≠ [] := by
    intro hnil
    rw [hnil] at hlength
    exact hdepth.ne hlength
  have hleaf : padTexts index texts i = c := by
    unfold padTexts
    rw [hc, Option.getD_some]
  refine ⟨hlength, ?_, ?_⟩
  · rw [hpath.pathIndices, List.length_map, length_indexBits]
  · have hclimb : climb index.hashPair (padTexts index texts i) i
        (siblings index.hashPair (padTexts index texts) 0 i index.depth) =
          node index.hashPair (padTexts index texts) index.depth 0 :=
      climb_leaf index.hashPair hi
    rw [hleaf, ← hpath.pathElements, ← hpath.root] at hclimb
    rw [hpath.pathIndices, ← hlength, hashAlong_eq_climb, climb_spelling hfree hr i hne, hclimb]

/-- **A new index.** -/
theorem soundIndex_create {depth : ℕ} {zeroHash : Text} {maxPathCacheEntries : Option ℤ}
    (h : createMerklePathIndex depth zeroHash hashPair maxPathCacheEntries = .ok index) :
    SoundIndex hashPair depth index ∧ 0 < depth := by
  unfold createMerklePathIndex at h
  obtain ⟨_, hpos, _, -, hret⟩ := by simpa only [bind_eq_ok] using h
  have hindex := (pure_eq_ok.mp hret).symm
  subst hindex
  refine ⟨⟨rfl, rfl, ⟨fun _ => none, ⟨?_, ?_, ?_⟩, ⟨?_, List.nodup_nil⟩, ?_⟩, ?_⟩,
    ensure_eq_ok.mp hpos⟩
  · intro k t
    constructor
    · intro hn
      cases hn
    · rintro ⟨_, _, hn⟩
      cases hn
  · intro t k
    constructor
    · intro hn
      cases hn
    · rintro ⟨_, _, _, hn, _⟩
      cases hn
  · intro _ hn
    cases hn
  · intro _ _ hn
    cases hn
  · intro _ _ hn
    cases hn
  · intro _ _ hn
    cases hn

/-- **A leaf that fits.** -/
theorem SoundIndex.withLeaf {depth : ℕ} (h : SoundIndex hashPair depth index) {args : NoteArgs}
    (hfits : Fits index args) :
    SoundIndex hashPair depth (withLeaf index args.commitment args.leafIndex) := by
  obtain ⟨hhash, hdepth, ⟨texts, hholds, hcached, hroom⟩, -⟩ := h
  refine ⟨hhash, hdepth, ⟨_, hholds.withLeaf ?_ ?_, ⟨?_, List.nodup_nil⟩, ?_⟩, ?_⟩
  · intro c' hc'
    exact hfits.place c' ((hholds.leavesByIndex _ _).mpr ⟨args.leafIndex, rfl, hc'⟩)
  · intro j c' hc' hlower
    have hplace := hfits.commitment j
      ((hholds.indexByCommitment _ _).mpr ⟨j, c', rfl, hc', hlower.symm⟩)
    exact_mod_cast hplace
  · exact fun _ _ hn => (nomatch hn)
  · intro i c hc
    by_cases hi : i = args.leafIndex
    · rw [hi, ← hdepth]
      exact hfits.capacity
    · rw [Function.update_of_ne hi] at hc
      exact hroom i c hc
  · exact fun _ _ hn => (nomatch hn)

/-- **A path that is returned.** -/
theorem SoundIndex.path {depth : ℕ} (h : SoundIndex hashPair depth index) (hpos : 0 < depth)
    (hdepth : depth ≤ 30) (hfree : SpellingFree hashPair) {t : Text} {r : MerklePathResult}
    (hok : getMerklePathForCommitment index t = .ok (index', r)) :
    SoundIndex hashPair depth index' ∧ PathValid hashPair depth r ∧ lower r.commitment = lower t := by
  obtain ⟨rfl, rfl, ⟨texts, hholds, hcached, hroom⟩, hspelled⟩ := h
  obtain ⟨k, sorted, cache, hk, hindex', -, hcache, hfrom⟩ :=
    getMerklePathForCommitment_cases hcached.nodup hok
  obtain ⟨i, c, rfl, hc, ht⟩ := (hholds.indexByCommitment _ _).mp hk
  have hi : i < 2 ^ 31 := (hroom i c hc).trans_le
    (Nat.pow_le_pow_right (by decide) (hdepth.trans (by decide)))
  obtain ⟨hpath, hholds', hcached'⟩ := hholds.path hcached hc hi ht hok
  have hr : lower r.commitment = lower t := by
    rcases hfrom with ⟨-, hr⟩ | ⟨leafIndexes, -, -, rfl⟩
    · exact hspelled _ _ hr
    · rfl
  refine ⟨?_, pathValid_of_pathIn hfree hc (hroom i c hc) hpos hpath (hr.trans ht), hr⟩
  subst hindex'
  refine ⟨rfl, rfl, ⟨texts, hholds', hcached', hroom⟩, fun t' r' hr' => ?_⟩
  rcases hcache t' r' hr' with ⟨rfl, rfl⟩ | hold
  · exact hr
  · exact hspelled t' r' hold

end Paths

/-! ### The state of the server -/

/-- **What holds of the state** after any batches and requests. -/
structure Sound (hashPair : HashPair) (depth : ℕ) (state : IndexerState) : Prop where
  ranges : Tidy state.ranges
  merklePaths : ∃ index, state.merklePaths = some index ∧ SoundIndex hashPair depth index

section State
variable {hashPair : HashPair} {depth : ℕ} {state : IndexerState}

theorem Sound.of_eq {state' : IndexerState} (h : Sound hashPair depth state)
    (hpaths : state'.merklePaths = state.merklePaths) (hranges : state'.ranges = state.ranges) :
    Sound hashPair depth state' :=
  ⟨hranges ▸ h.ranges, hpaths ▸ h.merklePaths⟩

/-- One note, accepted or not. -/
theorem sound_ingestNote (input : IngestInput) (log : RawPoolLog) (args : NoteArgs)
    (h : Sound hashPair depth state) :
    Sound hashPair depth (ingestNote input log state args).1 := by
  obtain ⟨index, hindex, hsound⟩ := h.merklePaths
  have hwith : (∀ index ∈ state.merklePaths, Fits index args) →
      ∃ new, (state.merklePaths.map fun index => withLeaf index args.commitment args.leafIndex) =
        some new ∧ SoundIndex hashPair depth new := fun hfits => by
    rw [hindex]
    exact ⟨_, rfl, hsound.withLeaf (hfits index hindex)⟩
  rcases ingestNote_cases input log state args with ⟨e, heq, -⟩ | ⟨e, heq, hfits, -⟩ |
    ⟨heq, hfits, -⟩
  · rw [heq]
    exact h
  · rw [heq]
    exact ⟨h.ranges, hwith hfits⟩
  · rw [heq]
    exact ⟨h.ranges, hwith hfits⟩

theorem sound_ingestLog (decodeEventLog : DecodeEventLog) (input : IngestInput) (log : RawPoolLog)
    (h : Sound hashPair depth state) :
    Sound hashPair depth (ingestLog decodeEventLog input state log).1 := by
  rcases ingestLog_cases decodeEventLog input log with ⟨-, hlog⟩ | ⟨error, -, hlog⟩ |
    ⟨event, -, -, hlog⟩ | ⟨event, args, -, -, hlog⟩
  · rw [hlog]
    exact h
  · rw [hlog]
    exact h
  · obtain ⟨roots, expiredRoots, nullifiers, hmark⟩ := markEvent_eq log state event
    rw [hlog, hmark]
    exact h.of_eq rfl rfl
  · rw [hlog]
    exact sound_ingestNote input log args h

/-- **A batch**, whether it goes through or not. -/
theorem sound_ingestPoolLogs (decodeEventLog : DecodeEventLog) (input : IngestInput)
    (h : Sound hashPair depth state) :
    Sound hashPair depth (ingestPoolLogs decodeEventLog state input).1 := by
  have hlogs : Sound hashPair depth
      (forEach (ingestLog decodeEventLog input) state input.logs).1 :=
    forEach_induction (fun s log _ hs => sound_ingestLog decodeEventLog input log hs) h
  unfold ingestPoolLogs
  rcases hall : forEach (ingestLog decodeEventLog input) state input.logs with ⟨next, e | ⟨⟩⟩
  · rw [hall] at hlogs
    exact hlogs
  rw [hall] at hlogs
  rw [andThen_ok, markChecked]
  rcases hmark : markCheckedRange next.ranges input.checkedRange with e | ⟨ranges, ⟨⟩⟩
  · exact hlogs
  · obtain ⟨tracker, hmark', htidy, -⟩ :=
      markCheckedRange_spec hlogs.ranges (markCheckedRange_eq_ok hmark)
    obtain ⟨rfl, -⟩ := Prod.mk.inj (Except.ok.inj (hmark.symm.trans hmark'))
    exact ⟨htidy, hlogs.merklePaths⟩

/-- The input of the handler, from the state of the indexer. -/
def handlerInput (options : HandlerOptions) (index : MerklePathIndex) (state : IndexerState) :
    HandlerInput where
  toHandlerOptions := options
  merklePaths := index
  checkedRanges := some state.ranges
  acceptedRoots := some state.roots

/-- **What an answer promises.** -/
structure SoundAnswer (hashPair : HashPair) (depth : ℕ) (options : HandlerOptions)
    (state : IndexerState) (query : JsMap Text Text) (response : RecoveryApiResponse) : Prop where
  served : (getV12RuntimeBinding options).binding.isSome → response.status = 200 →
    ∃ path commitment, response.body.path = some path ∧
      get query "commitment".toList = some commitment ∧ lower path.commitment = lower commitment ∧
      (∀ block, options.scanStartBlock.getD 0 ≤ block → block ≤ options.latestCheckedBlock →
        Checked state.ranges block) ∧
      (get state.roots (lower path.root)).isSome ∧ PathValid hashPair depth path
  refused : response.status ≠ 200 → 400 ≤ response.status ∧ response.body.path = none

/-- Where the checks for v1.2 refuse nothing, no block is missing. -/
theorem checked_of_refuseV12 {options : HandlerOptions} {index : MerklePathIndex}
    (h : refuseV12 (handlerInput options index state) = none) (block : ℤ)
    (hlo : options.scanStartBlock.getD 0 ≤ block) (hhi : block ≤ options.latestCheckedBlock) :
    Checked state.ranges block := by
  have hstatus : (missingRangeStatus (handlerInput options index state)).map
      RangeStatus.partialSync = some false := by
    by_contra hpart
    unfold refuseV12 at h
    dsimp only at h
    rw [if_pos hpart] at h
    cases h
  have hempty : ¬options.latestCheckedBlock < options.scanStartBlock.getD 0 :=
    not_lt.mpr (hlo.trans hhi)
  unfold missingRangeStatus handlerInput at hstatus
  dsimp only at hstatus
  rw [if_neg hempty, Option.map_some, Option.some.injEq, decide_eq_false_iff_not, not_lt,
    Nat.le_zero, List.length_eq_zero_iff] at hstatus
  exact covers_of_findMissingRanges hstatus block ⟨hlo, hhi⟩

/-- What refuses has an error status. -/
theorem refused_of_refuseV12 {input : HandlerInput} {response : RecoveryApiResponse}
    (h : refuseV12 input = some response) : response.status = 503 ∧ response.body.path = none := by
  unfold refuseV12 at h
  dsimp only at h
  split_ifs at h
  · rw [← Option.some.inj h]
    exact ⟨rfl, rfl⟩
  · rw [← Option.some.inj h]
    exact ⟨rfl, rfl⟩

/-- **What the last step answers**: the path, if its root is accepted. -/
theorem servePath_spec (hfree : SpellingFree hashPair) (hpos : 0 < depth) (hdepth : depth ≤ 30)
    {options : HandlerOptions} {index : MerklePathIndex} (h : SoundIndex hashPair depth index)
    {commitment : Text} {r : MerklePathIndex × RecoveryApiResponse}
    (hserve : servePath (handlerInput options index state) commitment = r) :
    SoundIndex hashPair depth r.1 ∧
      (400 ≤ r.2.status ∧ r.2.body.path = none ∨
        r.2.status = 200 ∧ ∃ path, r.2.body.path = some path ∧
          lower path.commitment = lower commitment ∧
          (get state.roots (lower path.root)).isSome ∧ PathValid hashPair depth path) := by
  have h404 : 400 ≤ 404 := by decide
  have h409 : 400 ≤ 409 := by decide
  have hindex : (handlerInput options index state).merklePaths = index := rfl
  unfold servePath at hserve
  rw [hindex] at hserve
  rcases hok : getMerklePathForCommitment index commitment with e | ⟨index', path⟩
  · rw [hok] at hserve
    subst hserve
    exact ⟨h, .inl ⟨h404, rfl⟩⟩
  obtain ⟨hindex', hvalid, hspelled⟩ := h.path hpos hdepth hfree hok
  rw [hok] at hserve
  dsimp only at hserve
  split_ifs at hserve with hroot
  · subst hserve
    exact ⟨hindex', .inl ⟨h409, rfl⟩⟩
  · subst hserve
    refine ⟨hindex', .inr ⟨rfl, path, rfl, hspelled, ?_, hvalid⟩⟩
    rcases hget : get state.roots (lower path.root) with _ | record
    · exact absurd ⟨state.roots, rfl, hget⟩ hroot
    · rfl

/-- **A request** keeps the index sound, and its answer is. -/
theorem merklePath_spec (hfree : SpellingFree hashPair) (hpos : 0 < depth) (hdepth : depth ≤ 30)
    (options : HandlerOptions) {index : MerklePathIndex} (h : SoundIndex hashPair depth index)
    (query : JsMap Text Text) :
    SoundIndex hashPair depth (merklePath (handlerInput options index state) query).1 ∧
      SoundAnswer hashPair depth options state query
        (merklePath (handlerInput options index state) query).2 := by
  have hrefuse : ∀ {r : MerklePathIndex × RecoveryApiResponse}, r.1 = index →
      400 ≤ r.2.status → r.2.body.path = none →
      SoundIndex hashPair depth r.1 ∧ SoundAnswer hashPair depth options state query r.2 :=
    fun hr hstatus hbody => ⟨hr ▸ h, fun _ hok => absurd hok (by omega), fun _ => ⟨hstatus, hbody⟩⟩
  have h404 : 400 ≤ 404 := by decide
  have h503 : 400 ≤ 503 := by decide
  unfold merklePath
  by_cases hwallet : hasWalletLinkedDiscoveryField query = true
  · rw [if_pos hwallet]
    exact hrefuse rfl le_rfl rfl
  rw [if_neg hwallet]
  by_cases hchain : get query "chainId".toList ≠
      some (Lib.Decimal.ofNat (handlerInput options index state).chainId)
  · rw [if_pos hchain]
    exact hrefuse rfl le_rfl rfl
  rw [if_neg hchain]
  rcases hpool : get query "pool".toList with _ | pool
  · exact hrefuse rfl le_rfl rfl
  rcases hcommitment : get query "commitment".toList with _ | commitment
  · exact hrefuse rfl le_rfl rfl
  dsimp only
  by_cases hindexed : lower pool ≠ lower (handlerInput options index state).pool
  · rw [if_pos hindexed]
    exact hrefuse rfl h404 rfl
  rw [if_neg hindexed]
  by_cases hready : (getV12RuntimeBinding (handlerInput options index state).toHandlerOptions
      ).blocked = true ∨ ∃ binding ∈ (getV12RuntimeBinding
        (handlerInput options index state).toHandlerOptions).binding,
      ¬hasMatchingV12ReadinessEvidence (handlerInput options index state).toHandlerOptions
        binding = true
  · rw [if_pos hready]
    exact hrefuse rfl h503 rfl
  rw [if_neg hready]
  by_cases hhex : isHexBytes32 commitment
  swap
  · rw [if_pos hhex]
    exact hrefuse rfl le_rfl rfl
  rw [if_neg (not_not.mpr hhex)]
  rcases hguard : (if (getV12RuntimeBinding (handlerInput options index state).toHandlerOptions
      ).binding.isSome then refuseV12 (handlerInput options index state) else none) with _ | response
  · dsimp only
    obtain ⟨hindex, hanswer⟩ := servePath_spec hfree hpos hdepth h
      (rfl : servePath (handlerInput options index state) commitment = _)
    refine ⟨hindex, fun hbound hok => ?_, fun hstatus => ?_⟩
    · have hsome : (getV12RuntimeBinding (handlerInput options index state).toHandlerOptions
          ).binding.isSome := hbound
      rw [if_pos hsome] at hguard
      rcases hanswer with ⟨hstatus, -⟩ | ⟨-, path, hpath, hspelled, hroot, hvalid⟩
      · omega
      · exact ⟨path, commitment, hpath, hcommitment, hspelled, checked_of_refuseV12 hguard, hroot,
          hvalid⟩
    · rcases hanswer with hrefused | ⟨hok, -⟩
      · exact hrefused
      · exact absurd hok hstatus
  · dsimp only
    split_ifs at hguard with hbound
    · obtain ⟨hstatus, hbody⟩ := refused_of_refuseV12 hguard
      have hle : 400 ≤ response.status := hstatus.symm ▸ h503
      exact ⟨h, fun _ hok => absurd hok (by omega), fun _ => ⟨hle, hbody⟩⟩

/-! ### Batches and requests -/

/-- What happens to the server. -/
inductive ServerStep
  | ingest (input : IngestInput)
  | request (options : HandlerOptions) (query : JsMap Text Text)

/-- A request may change the cache of the index. -/
def serverStep (decodeEventLog : DecodeEventLog) (state : IndexerState) : ServerStep → IndexerState
  | .ingest input => (ingestPoolLogs decodeEventLog state input).1
  | .request options query =>
    match state.merklePaths with
    | none => state
    | some index =>
      { state with merklePaths := some (merklePath (handlerInput options index state) query).1 }

/-- **Any batches and requests**, in any order. -/
theorem sound_run (decodeEventLog : DecodeEventLog) (hfree : SpellingFree hashPair)
    (hpos : 0 < depth) (hdepth : depth ≤ 30) : ∀ (steps : List ServerStep) {state : IndexerState},
    Sound hashPair depth state → Sound hashPair depth (steps.foldl (serverStep decodeEventLog) state)
  | [], _, h => h
  | step :: steps, state, h => by
    refine sound_run decodeEventLog hfree hpos hdepth steps ?_
    cases step with
    | ingest input => exact sound_ingestPoolLogs decodeEventLog input h
    | request options query =>
      obtain ⟨index, hindex, hsound⟩ := h.merklePaths
      unfold serverStep
      dsimp only
      rw [hindex]
      exact ⟨h.ranges, _, rfl, (merklePath_spec hfree hpos hdepth options hsound query).1⟩

/-- **Served paths are sound.** After any batches and requests, a path that is served for a runtime of
v1.2 leads from the commitment to an accepted root while no block is missing, and every other answer
is an error without a path. -/
theorem served_paths_sound (decodeEventLog : DecodeEventLog) {index : MerklePathIndex}
    {zeroHash : Text} {maxPathCacheEntries : Option ℤ}
    (hcreate : createMerklePathIndex depth zeroHash hashPair maxPathCacheEntries = .ok index)
    (hdepth : depth ≤ 30) (hfree : SpellingFree hashPair) (steps : List ServerStep)
    (options : HandlerOptions) (query : JsMap Text Text) :
    ∃ current, (steps.foldl (serverStep decodeEventLog)
        (createIndexerState (some index))).merklePaths = some current ∧
      SoundAnswer hashPair depth options
        (steps.foldl (serverStep decodeEventLog) (createIndexerState (some index))) query
        (merklePath (handlerInput options current
          (steps.foldl (serverStep decodeEventLog) (createIndexerState (some index)))) query).2 := by
  obtain ⟨hindex, hpos⟩ := soundIndex_create hcreate
  have hstart : Sound hashPair depth (createIndexerState (some index)) :=
    ⟨tidy_create, index, rfl, hindex⟩
  obtain ⟨current, hcurrent, hsound⟩ :=
    (sound_run decodeEventLog hfree hpos hdepth steps hstart).merklePaths
  exact ⟨current, hcurrent, (merklePath_spec hfree hpos hdepth options hsound query).2⟩

end State

/-! ### A path that is served -/

def sampleHash : HashPair := fun l r =>
  hex32 (BitVec.ofNat 256 (hexNat l) ^^^ (BitVec.ofNat 256 (hexNat r) <<< 1))

theorem sampleHash_free : SpellingFree sampleHash := by
  have hvalue : ∀ {t t' : Text}, lower t = lower t' → hexNat t = hexNat t' := by
    intro t t' h
    have hdrop : lower (t.drop 2) = lower (t'.drop 2) := by
      unfold lower at h ⊢
      rw [List.map_drop, List.map_drop, h]
    unfold hexNat
    rw [← value_of_lower, hdrop, value_of_lower]
  intro l l' r r' hl hr
  unfold sampleHash
  rw [hvalue hl, hvalue hr]

def servedOptions : HandlerOptions where
  chainId := 4326
  pool := v12MainnetPool
  originalPool := none
  runtimeId := some "nullark-v1.2-mainnet".toList
  v12ReadinessEvidence := some ⟨"nullark-v1.2-mainnet".toList, 4326, v12MainnetPool,
    "ready".toList, false, some true, v12ApprovedPublicRuntimeHash, none⟩
  latestCheckedBlock := 100
  scanStartBlock := some 100

/-- A deposit of the pool of v1.2. -/
def servedInput : IngestInput where
  chainId := 4326
  pool := v12MainnetPool
  sourceRpc := "https://carrot.megaeth.com/rpc".toList
  observedAtMs := 1777700000000
  logs := [
    { sampleLog [depositNoteCreatedTopic, hex32 0x11, hex32 0] sampleNoteData 0 with
      address := v12MainnetPool },
    { sampleLog [rootAcceptedTopic, hex32 0x11, hex32 0, hex32 0x11] ['0', 'x'] 1 with
      address := v12MainnetPool }]
  checkedRange := ⟨100, 100⟩

def servedQuery : JsMap Text Text :=
  [("chainId".toList, "4326".toList), ("pool".toList, v12MainnetPool),
    ("commitment".toList, hex32 0x11)]

def servedIndex : MerklePathIndex := ⟨2, hex32 0, sampleHash, [], [], none, [], 256⟩

def servedState : IndexerState :=
  [ServerStep.ingest servedInput].foldl (serverStep sampleDecode)
    (createIndexerState (some servedIndex))

/-- The path of a deposit. -/
theorem served_paths_sound_deposit : ∃ path,
    (get servedState.roots (lower path.root)).isSome ∧ PathValid sampleHash 2 path := by
  have hdepth : 0 < 2 ∧ 2 < 53 := by decide
  obtain ⟨current, hcurrent, hanswer⟩ := served_paths_sound sampleDecode
    (createMerklePathIndex_of hdepth (hex32 0) sampleHash none) (by decide) sampleHash_free
    [.ingest servedInput] servedOptions servedQuery
  have hstatus : (servedState.merklePaths.map fun index =>
      (merklePath (handlerInput servedOptions index servedState) servedQuery).2.status) =
        some 200 := by decide +kernel
  have hstate : servedState.merklePaths = some current := hcurrent
  rw [hstate, Option.map_some, Option.some.injEq] at hstatus
  obtain ⟨path, -, -, -, -, -, hroot, hvalid⟩ := hanswer.served (by decide) hstatus
  exact ⟨path, hroot, hvalid⟩

end Nullark.Indexer.RecoveryApi
