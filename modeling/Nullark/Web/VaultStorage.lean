import Nullark.Web.NoteVault
import Nullark.Web.RecoveryKits

/-! # Saving the note vault

The app keeps its vault as one text in the storage of the browser. When it is loaded, every record is
read by `parseSandboxSpendMaterialNoteRecord`, and one that fails makes the whole vault fail.

* `parseSandboxNoteVault_print`: a vault is read from its text.
* `saved_vault_loads`: what was saved is loaded, up to the case of the pool addresses. -/

namespace Nullark.Web.VaultStorage

open Nullark.Lib Nullark.Lib.Outcome Nullark.Lib.Stringify
open Nullark.Lib.Hex hiding value Digits ofNat
open Nullark.Lib.Json (Value)
open Nullark.Core.Proofs (maxSafeInteger)
open Nullark.Evm.Basic Nullark.Pool.Interface
open Nullark.Js.Basic Nullark.Js.Bytes Nullark.Js.Numbers Nullark.Js.SpendMaterial
open Nullark.Js.NoteEnvelope
open Nullark.Web.WalletNotes (shieldedPoolAddress legacyMainnetShieldedPoolDepth20Address
  NoteRecordDeployment Supported)
open Nullark.Web.NoteRecords Nullark.Web.NoteVault
open Nullark.Web.RecoveryKits (ExpectedDeployment ResolvedDeployment noteRecordOfKit
  resolveExpectedNoteRecordDeployment resolveExpectedPool)
open Nullark.Sdk.RecoveryKit (recoveryKitV1Domain isBlockQuantity textMember_eq_some
  naturalMember_eq_some ite_error_eq_ok)

/-! ### The texts of the marks -/

def sandboxNoteRecordVersion : Text := "sandbox-spend-material-note-v1".toList

def sandboxNoteRecordWarning : Text := "contains-private-spend-material-no-zk-witness".toList

def sandboxNoteVaultVersion : Text := "sandbox-note-vault-v1".toList

def sandboxNoteVaultStorageKey : Text := "shielded-transfers:sandbox-note-vault-v1".toList

def derivationText : CommitmentDerivationStatus → Text
  | .manual => "manual-bn254-field-commitment-not-poseidon-derived".toList
  | .poseidonDerived => "poseidon-derived-from-spend-material".toList

def pathStatusText : MerklePathStatus → Text
  | .notFetched => "not-fetched".toList
  | .reconstructed => "reconstructed-from-root-accepted-logs".toList

def noteStatusText : NoteStatus → Text
  | .deposited => "deposited-missing-merkle-path-and-proof".toList
  | .withMerklePath => "deposited-with-reconstructed-merkle-path".toList
  | .withProof => "withdrawal-proof-generated-local-untrusted".toList

def proofStatusText : ProofGenerationStatus → Text
  | .notWired => "not-wired".toList
  | .localUntrusted => "local-untrusted-groth16-generated".toList
  | .browser => "browser-groth16-generated".toList

def routeText : SandboxRecoveryRoute → Text
  | .localNote => "local-note".toList
  | .walletRecovery => "wallet-recovery".toList
  | .recoveryKit => "recovery-kit".toList

/-! ### Printing -/

def nullable {α : Type} (print : α → Doc) : Option α → Doc
  | none => .null
  | some a => print a

def merklePathDocs (p : NoteMerklePath) : List (Text × Doc) :=
  [("root".toList, nullable .string p.root),
    ("siblings".toList, .array (p.siblings.map .string)),
    ("pathIndices".toList, .array (p.pathIndices.map .number)),
    ("status".toList, .string (pathStatusText p.status))]

def spendStatusDocs (s : SandboxSpendStatus) : List (Text × Doc) :=
  [("route".toList, .string (routeText s.route)),
    ("commitment".toList, .string s.commitment),
    ("leafIndex".toList, nullable .number s.leafIndex),
    ("spent".toList, nullable .bool s.spent)]

/-- The members of a record, as they are printed. -/
def recordDocs (r : SandboxSpendMaterialNoteRecord) : List (Text × Doc) :=
  [("version".toList, .string sandboxNoteRecordVersion),
    ("chainId".toList, .number r.chainId),
    ("rpcUrl".toList, .string r.rpcUrl),
    ("pool".toList, .string r.pool),
    ("assetId".toList, .string r.assetId),
    ("noteAmountWei".toList, .string r.noteAmountWei),
    ("ownerCommitment".toList, .string r.ownerCommitment),
    ("noteSecret".toList, .string r.noteSecret),
    ("blinding".toList, .string r.blinding),
    ("commitment".toList, .string r.commitment),
    ("commitmentDerivationStatus".toList, .string (derivationText r.commitmentDerivationStatus)),
    ("commitmentDerivedFromSpendMaterial".toList, .bool r.commitmentDerivedFromSpendMaterial),
    ("leafIndex".toList, nullable .number r.leafIndex),
    ("merklePath".toList, .object (merklePathDocs r.merklePath)),
    ("depositTxHash".toList, .string r.depositTxHash),
    ("depositBlockNumber".toList, nullable .string r.depositBlockNumber),
    ("currentRootAfter".toList, nullable .string r.currentRootAfter),
    ("createdAt".toList, .string r.createdAt),
    ("recoveryRoute".toList, .string (routeText r.recoveryRoute)),
    ("spendStatus".toList, .object (spendStatusDocs r.spendStatus)),
    ("status".toList, .string (noteStatusText r.status)),
    ("proofGenerationStatus".toList, .string (proofStatusText r.proofGenerationStatus)),
    ("warning".toList, .string sandboxNoteRecordWarning)]

def entryDocs (e : SandboxNoteVaultEntry) : List (Text × Doc) :=
  [("version".toList, .string sandboxNoteVaultVersion),
    ("record".toList, .object (recordDocs e.record)),
    ("spent".toList, .bool e.spent),
    ("spentNullifier".toList, nullable .string e.spentNullifier),
    ("updatedAt".toList, .string e.updatedAt)]

def vaultDoc (entries : List SandboxNoteVaultEntry) : Doc :=
  .object [("version".toList, .string sandboxNoteVaultVersion),
    ("entries".toList, .array (entries.map fun e => .object (entryDocs e)))]

/-- **`serializeSandboxNoteVault`**. -/
def serializeSandboxNoteVault (entries : List SandboxNoteVaultEntry) : Text :=
  print 2 0 (vaultDoc entries)

/-! ### Reading a record -/

/-- The members of a value; one that is no object has none. -/
def membersOf : Value → List (Text × Value)
  | .object members => members
  | _ => []

/-- `value ?? ""`. -/
def textOrEmpty (value : Option Value) (message : String) : Throws Text :=
  match value with
  | none | some .null => .ok []
  | some (.string t) => .ok t
  | some _ => .error message

/-- `value ?? null`, for a text. -/
def textOrNull (value : Option Value) (message : String) : Throws (Option Text) :=
  match value with
  | none | some .null => .ok none
  | some (.string t) => .ok (some t)
  | some _ => .error message

/-- A safe integer that is not negative. -/
def asNatural : Value → Option ℕ
  | .number (.finite q) =>
    if q.den = 1 ∧ 0 ≤ q.num ∧ q.num < 2 ^ 53 then some q.num.toNat else none
  | _ => none

/-- `value ?? null`, for a leaf index. -/
def naturalOrNull (value : Option Value) (message : String) : Throws (Option ℕ) :=
  match value with
  | none | some .null => .ok none
  | some v =>
    match asNatural v with
    | some n => .ok (some n)
    | none => .error message

/-- `value ?? []`, item by item. -/
def itemsOr {α : Type} (value : Option Value) (read : Value → Option α) (message : String) :
    Throws (Option (List α)) :=
  match value with
  | none | some .null => .ok none
  | some (.array items) =>
    match items.mapM read with
    | some as => .ok (some as)
    | none => .error message
  | some _ => .error message

def asText : Value → Option Text
  | .string t => some t
  | _ => none

/-- A mark with a listed text. -/
def requireMark {α : Type} (all : List α) (text : α → Text) (value : Option Value)
    (message : String) : Throws α :=
  match value with
  | some (.string t) =>
    match all.find? fun a => text a = t with
    | some a => .ok a
    | none => .error message
  | _ => .error message

def requireBool (value : Option Value) (message : String) : Throws Bool :=
  match value with
  | some (.bool b) => .ok b
  | _ => .error message

def requireString (value : Option Value) (message : String) : Throws Text :=
  match value with
  | some (.string t) => .ok t
  | _ => .error message

def requireRecordChainId (value : Option ℕ) : Throws ℕ :=
  match value with
  | some n => if isSupportedMegaEthChainId n then .ok n else .error "Unsupported note record chain ID."
  | none => .error "Unsupported note record chain ID."

/-- A mark that may be left out. -/
def markOr {α : Type} (all : List α) (text : α → Text) (value : Option Value)
    (message : String) : Throws (Option α) :=
  match value with
  | none | some .null => .ok none
  | some v => (requireMark all text (some v) message).map some

/-- The path of a record; what is no object has no fields. -/
def readMerklePath (value : Option Value) : Throws PartialMerklePath := do
  let members := (value.map membersOf).getD []
  let member := fun name : String => Json.lookup members name.toList
  let root ← textOrNull (member "root")
    "Expected note record Merkle path root to be bytes32 hex."
  let siblings ← itemsOr (member "siblings") asText
    "Expected every Merkle path sibling to be bytes32 hex."
  let pathIndices ← itemsOr (member "pathIndices") asNatural
    "Expected every Merkle path index to be 0 or 1."
  let status ← markOr [.notFetched, .reconstructed] pathStatusText (member "status")
    "Unsupported note record Merkle path status."
  return { root, siblings, pathIndices, status }

/-- Whether the note of a record is spent, if it says so. -/
def readSpent (value : Option Value) : Throws (Option Bool) :=
  match Json.lookup ((value.map membersOf).getD []) "spent".toList with
  | none | some .null => .ok none
  | some (.bool b) => .ok (some b)
  | some _ => .error "Note record spend status spent marker must be boolean or null."

/-- A route that is left out is that of a local note. -/
def readRoute (value : Option Value) : Throws SandboxRecoveryRoute :=
  match value with
  | none => .ok .localNote
  | some v => requireMark [.localNote, .walletRecovery, .recoveryKit] routeText (some v)
      "Unsupported note record recovery route."

/-- What a record is made from again, for the deployment of its members. -/
def readRecordInput (members : List (Text × Value)) (chainId : ℕ) (rpcUrl pool : Text) :
    Throws NoteRecordInput := do
  let member := fun name : String => Json.lookup members name.toList
  let proofGenerationStatus ← requireMark [.notWired, .localUntrusted, .browser] proofStatusText
    (member "proofGenerationStatus") "Unsupported note record proof generation status."
  let status ← requireMark [.deposited, .withMerklePath, .withProof] noteStatusText
    (member "status") "Unsupported note record status."
  let commitmentDerivationStatus ← requireMark [.manual, .poseidonDerived] derivationText
    (member "commitmentDerivationStatus") "Unsupported note record commitment derivation status."
  let commitmentDerivedFromSpendMaterial ← requireBool (member "commitmentDerivedFromSpendMaterial")
    "Note record commitment derivation marker is missing."
  ensure (textMember members "warning" = some sandboxNoteRecordWarning)
    "Note record warning marker is missing."
  let assetId ← textOrEmpty (member "assetId")
    "Expected note record asset ID to be bytes32 hex."
  let commitment ← textOrEmpty (member "commitment")
    "Expected note record commitment to be a nonzero BN254 field element."
  let noteAmountWei ← textOrEmpty (member "noteAmountWei")
    "Expected note record amount wei as a positive decimal integer."
  let ownerCommitment ← textOrEmpty (member "ownerCommitment")
    "Expected note record owner commitment to be a nonzero BN254 field element."
  let noteSecret ← textOrEmpty (member "noteSecret")
    "Expected note record secret to be a nonzero BN254 field element."
  let blinding ← textOrEmpty (member "blinding")
    "Expected note record blinding to be a nonzero BN254 field element."
  let depositTxHash ← textOrEmpty (member "depositTxHash")
    "Expected note record deposit tx hash to be 32-byte hex."
  let depositBlockNumber ← textOrNull (member "depositBlockNumber")
    "Expected note record deposit block number to be a hex block quantity or null."
  let currentRootAfter ← textOrNull (member "currentRootAfter")
    "Expected note record current root to be bytes32 hex."
  let createdAt ← textOrEmpty (member "createdAt") "Expected note record creation time."
  let leafIndex ← naturalOrNull (member "leafIndex")
    "Expected note record leaf index to be null or a non-negative safe integer."
  let recoveryRoute ← readRoute (member "recoveryRoute")
  let spent ← readSpent (member "spendStatus")
  let merklePath ← readMerklePath (member "merklePath")
  return {
    commitment, noteAmountWei, ownerCommitment, noteSecret, blinding, depositTxHash
    depositBlockNumber, currentRootAfter, createdAt, assetId, leafIndex, merklePath, recoveryRoute
    spendStatus := some { route := recoveryRoute, commitment, leafIndex, spent }
    commitmentDerivationStatus, commitmentDerivedFromSpendMaterial, status, proofGenerationStatus
    chainId := some chainId, rpcUrl := some rpcUrl, pool }

def parseRecordMembers (members : List (Text × Value))
    (expectedDeployment : Option ExpectedDeployment) : Throws SandboxSpendMaterialNoteRecord := do
  let member := fun name : String => Json.lookup members name.toList
  ensure (textMember members "version" = some sandboxNoteRecordVersion)
    "Unsupported note record version."
  let chainId ← requireRecordChainId (naturalMember members "chainId")
  let rpcUrl ← requireString (member "rpcUrl") "Expected note record RPC URL."
  ensure (trim rpcUrl ≠ []) "Expected note record RPC URL."
  let pool ← requireString (member "pool") "Expected shielded pool to be an EVM address."
  ensure (lower pool ≠ lower legacyMainnetShieldedPoolDepth20Address)
    "Legacy MegaETH mainnet ShieldedPoolDepth20 address is not a supported NullarkPool binding."
  let expected ← resolveExpectedNoteRecordDeployment expectedDeployment pool
  ensure (∀ expectedId ∈ expected.chainId, chainId = expectedId)
    "Note record is not for expected MegaETH chain."
  ensure (∀ expectedUrl ∈ expected.rpcUrl, rpcUrl = expectedUrl)
    "Note record is not for expected MegaETH RPC."
  ensure (lower pool = lower expected.pool) "Note record is not for this shielded pool."
  let input ← readRecordInput members chainId rpcUrl expected.pool
  createSandboxSpendMaterialNoteRecord input

section Code
variable (keccak256 : Bytes → Bytes32)

/-- What `parseSandboxSpendMaterialNoteRecord` does with the value it has read. -/
def parseRecordValue (value : Value) (expectedDeployment : Option ExpectedDeployment) :
    Throws SandboxSpendMaterialNoteRecord :=
  match value with
  | .null => .error "TypeError"
  | value =>
    if textMember (membersOf value) "domain" = some recoveryKitV1Domain then
      noteRecordOfKit keccak256 value expectedDeployment
    else parseRecordMembers (membersOf value) expectedDeployment

/-- **`parseSandboxSpendMaterialNoteRecord`**. -/
def parseSandboxSpendMaterialNoteRecord (text : Text)
    (expectedDeployment : Option ExpectedDeployment) : Throws SandboxSpendMaterialNoteRecord :=
  match Json.parse text with
  | none => .error "Expected note record JSON."
  | some value => parseRecordValue keccak256 value expectedDeployment

/-! ### Reading the vault -/

/-- `value ?? {}`. -/
def objectOr : Option Value → Value
  | none | some .null => .object []
  | some value => value

/-- An entry of the vault. Its record is printed once more and read from that text. -/
def parseEntry (value : Value) : Throws SandboxNoteVaultEntry :=
  match value with
  | .null => .error "TypeError"
  | value => do
    let members := membersOf value
    let member := fun name : String => Json.lookup members name.toList
    ensure (textMember members "version" = some sandboxNoteVaultVersion)
      "Unsupported sandbox note vault entry version."
    let spent ← requireBool (member "spent") "Expected sandbox note vault spent marker."
    let record ← parseRecordValue keccak256 (reread (objectOr (member "record"))) none
    let spentNullifier ← textOrNull (member "spentNullifier")
      "Expected spent note nullifier to be bytes32 hex."
    let updatedAt ← textOrEmpty (member "updatedAt") "Expected note vault update time."
    createSandboxNoteVaultEntry record spent spentNullifier updatedAt

/-- The entries of a vault that was read. -/
def vaultEntries (members : List (Text × Value)) : Throws (List Value) :=
  match Json.lookup members "entries".toList with
  | some (.array items) =>
    if textMember members "version" = some sandboxNoteVaultVersion then .ok items
    else .error "Unsupported sandbox note vault version."
  | _ => .error "Unsupported sandbox note vault version."

/-- **`parseSandboxNoteVault`**, its entries. -/
def parseSandboxNoteVault (text : Text) : Throws (List SandboxNoteVaultEntry) :=
  match Json.parse text with
  | none => .error "Expected sandbox note vault JSON."
  | some .null => .error "TypeError"
  | some value => do
    let items ← vaultEntries (membersOf value)
    items.mapM (parseEntry keccak256)

/-! ### The storage -/

/-- What the storage of the browser has under each key. -/
abbrev Storage := Text → Option Text

/-- **`loadSandboxNoteVault`**. -/
def loadSandboxNoteVault (storage : Option Storage) : Throws (List SandboxNoteVaultEntry) :=
  match storage with
  | none => .ok []
  | some storage =>
    match storage sandboxNoteVaultStorageKey with
    | none | some [] => .ok []
    | some text => parseSandboxNoteVault keccak256 text

/-- **`saveSandboxNoteVault`**. -/
def saveSandboxNoteVault (storage : Option Storage) (entries : List SandboxNoteVaultEntry) :
    Option Storage :=
  storage.map fun storage =>
    Function.update storage sandboxNoteVaultStorageKey (some (serializeSandboxNoteVault entries))

end Code

/-! ### A record is read back -/

/-- The spelling of a pool in the records that are read. -/
def respell (pool : Text) : Text :=
  if lower pool = lower shieldedPoolAddress then shieldedPoolAddress else pool

theorem lower_respell (pool : Text) : lower (respell pool) = lower pool := by
  unfold respell
  split_ifs with h
  · exact h.symm
  · rfl

section Members
variable {message : String}

theorem textOrNull_nullable (o : Option Text) :
    textOrNull (some (nullable .string o).value) message = .ok o := by
  cases o <;> rfl

theorem asNatural_natCast {n : ℕ} (h : n < 2 ^ 53) :
    asNatural (.number (.finite n)) = some n := by
  have hsafe : (n : ℚ).den = 1 ∧ 0 ≤ (n : ℚ).num ∧ (n : ℚ).num < 2 ^ 53 := by
    rw [Rat.den_natCast, Rat.num_natCast]
    omega
  unfold asNatural
  dsimp only
  rw [if_pos hsafe, Rat.num_natCast, Int.toNat_natCast]

theorem naturalOrNull_some {v : Value} {n : ℕ} (h : asNatural v = some n) :
    naturalOrNull (some v) message = .ok (some n) := by
  unfold naturalOrNull
  split
  · cases ‹some v = none›
  · obtain rfl := Option.some.inj ‹some v = some .null›
    cases h
  · obtain rfl := Option.some.inj ‹some v = some _›
    rw [h]

theorem naturalOrNull_nullable {o : Option ℕ} (h : ∀ n ∈ o, n < 2 ^ 53) :
    naturalOrNull (some (nullable .number o).value) message = .ok o := by
  cases o with
  | none => rfl
  | some n => exact naturalOrNull_some (asNatural_natCast (h n rfl))

theorem mapM_eq_some_map {α : Type} {read : Value → Option α} {doc : α → Doc} :
    ∀ {as : List α}, (∀ a ∈ as, read (doc a).value = some a) →
      (valueItems (as.map doc)).mapM read = some as
  | [], _ => rfl
  | a :: as, h => by
    rw [List.map_cons, valueItems, List.mapM_cons, h a List.mem_cons_self,
      mapM_eq_some_map fun b hb => h b (List.mem_cons_of_mem a hb)]
    rfl

theorem itemsOr_array {α : Type} {read : Value → Option α} {doc : α → Doc} {as : List α}
    (h : ∀ a ∈ as, read (doc a).value = some a) :
    itemsOr (some (Doc.array (as.map doc)).value) read message = .ok (some as) := by
  rw [Doc.value, itemsOr, mapM_eq_some_map h]

theorem markOr_some {α : Type} {all : List α} {text : α → Text} {t : Text} {a : α}
    (h : requireMark all text (some (.string t)) message = .ok a) :
    markOr all text (some (.string t)) message = .ok (some a) := by
  unfold markOr
  dsimp only
  rw [h]
  rfl

theorem requireMark_derivationText (s : CommitmentDerivationStatus) :
    requireMark [.manual, .poseidonDerived] derivationText (some (.string (derivationText s)))
      message = .ok s := by
  cases s <;> rfl

theorem requireMark_pathStatusText (s : MerklePathStatus) :
    requireMark [.notFetched, .reconstructed] pathStatusText (some (.string (pathStatusText s)))
      message = .ok s := by
  cases s <;> rfl

theorem requireMark_noteStatusText (s : NoteStatus) :
    requireMark [.deposited, .withMerklePath, .withProof] noteStatusText
      (some (.string (noteStatusText s))) message = .ok s := by
  cases s <;> rfl

theorem requireMark_proofStatusText (s : ProofGenerationStatus) :
    requireMark [.notWired, .localUntrusted, .browser] proofStatusText
      (some (.string (proofStatusText s))) message = .ok s := by
  cases s <;> rfl

theorem requireMark_routeText (s : SandboxRecoveryRoute) :
    requireMark [.localNote, .walletRecovery, .recoveryKit] routeText
      (some (.string (routeText s))) message = .ok s := by
  cases s <;> rfl

end Members

section Records
variable {r : SandboxSpendMaterialNoteRecord}

/-- The members of a printed object whose names are distinct. -/
theorem lookup_valueMembers {docs : List (Text × Doc)} (h : (docs.map (·.1)).Nodup) :
    ∀ m ∈ docs, Json.lookup (valueMembers docs) m.1 = some m.2.value := by
  intro m hm
  rw [valueMembers_eq_map]
  refine Json.lookup_of_mem ?_ (List.mem_map_of_mem (f := fun m => (m.1, m.2.value)) hm)
  rwa [List.map_map]

/-- **The path of a record** is read back. -/
theorem readMerklePath_docs {p : NoteMerklePath} (h : ∀ i ∈ p.pathIndices, i = 0 ∨ i = 1) :
    readMerklePath (some (Doc.object (merklePathDocs p)).value) =
      .ok ⟨p.root, some p.siblings, some p.pathIndices, some p.status⟩ := by
  have hnodup : ((merklePathDocs p).map (·.1)).Nodup :=
    (by decide : (["root", "siblings", "pathIndices", "status"].map String.toList).Nodup)
  have hlookup := lookup_valueMembers hnodup
  simp only [merklePathDocs, List.forall_mem_cons] at hlookup
  obtain ⟨hroot, hsiblings, hindices, hstatus, -⟩ := hlookup
  have hnatural : ∀ i ∈ p.pathIndices, asNatural (Doc.number i).value = some i := fun i hi =>
    asNatural_natCast (by rcases h i hi with rfl | rfl <;> decide)
  have hmembers : ((some (Doc.object (merklePathDocs p)).value).map membersOf).getD [] =
      valueMembers (merklePathDocs p) := by rw [Doc.value]; rfl
  unfold readMerklePath
  rw [hmembers]
  simp only [bind_eq_ok, pure_eq_ok, merklePathDocs, hroot, hsiblings, hindices, hstatus]
  refine ⟨_, textOrNull_nullable _, _, itemsOr_array fun _ _ => rfl, _, itemsOr_array hnatural, _,
    markOr_some (requireMark_pathStatusText p.status), rfl⟩

theorem readSpent_docs (status : SandboxSpendStatus) :
    readSpent (some (Doc.object (spendStatusDocs status)).value) = .ok status.spent := by
  have hnodup : ((spendStatusDocs status).map (·.1)).Nodup :=
    (by decide : (["route", "commitment", "leafIndex", "spent"].map String.toList).Nodup)
  have hspent := lookup_valueMembers hnodup ("spent".toList, nullable .bool status.spent)
    (by simp [spendStatusDocs])
  have hmembers : ((some (Doc.object (spendStatusDocs status)).value).map membersOf).getD [] =
      valueMembers (spendStatusDocs status) := by rw [Doc.value]; rfl
  unfold readSpent
  rw [hmembers, hspent]
  cases status.spent <;> rfl

/-- What a record is made from again. -/
def inputOf (r : SandboxSpendMaterialNoteRecord) (pool : Text) : NoteRecordInput where
  commitment := r.commitment
  noteAmountWei := r.noteAmountWei
  ownerCommitment := r.ownerCommitment
  noteSecret := r.noteSecret
  blinding := r.blinding
  depositTxHash := r.depositTxHash
  depositBlockNumber := r.depositBlockNumber
  currentRootAfter := r.currentRootAfter
  createdAt := r.createdAt
  assetId := r.assetId
  leafIndex := r.leafIndex
  merklePath := ⟨r.merklePath.root, some r.merklePath.siblings, some r.merklePath.pathIndices,
    some r.merklePath.status⟩
  recoveryRoute := r.recoveryRoute
  spendStatus := some ⟨r.recoveryRoute, r.commitment, r.leafIndex, r.spendStatus.spent⟩
  commitmentDerivationStatus := r.commitmentDerivationStatus
  commitmentDerivedFromSpendMaterial := r.commitmentDerivedFromSpendMaterial
  status := r.status
  proofGenerationStatus := r.proofGenerationStatus
  chainId := some r.chainId
  rpcUrl := some r.rpcUrl
  pool := pool

def recordNames : List Text :=
  ["version", "chainId", "rpcUrl", "pool", "assetId", "noteAmountWei", "ownerCommitment",
    "noteSecret", "blinding", "commitment", "commitmentDerivationStatus",
    "commitmentDerivedFromSpendMaterial", "leafIndex", "merklePath", "depositTxHash",
    "depositBlockNumber", "currentRootAfter", "createdAt", "recoveryRoute", "spendStatus", "status",
    "proofGenerationStatus", "warning"].map String.toList

theorem names_recordDocs : (recordDocs r).map (·.1) = recordNames := rfl

theorem lookup_recordDocs : ∀ m ∈ recordDocs r,
    Json.lookup (valueMembers (recordDocs r)) m.1 = some m.2.value :=
  lookup_valueMembers (by rw [names_recordDocs]; decide)

/-- **The fields of a record** are read back, one by one. -/
theorem readRecordInput_docs (h : RecordFits r) (pool : Text) :
    readRecordInput (valueMembers (recordDocs r)) r.chainId r.rpcUrl pool =
      .ok (inputOf r pool) := by
  have hlookup := lookup_recordDocs (r := r)
  generalize valueMembers (recordDocs r) = members at hlookup ⊢
  simp only [recordDocs, List.forall_mem_cons] at hlookup
  obtain ⟨-, -, -, -, hasset, hamount, howner, hsecret, hblinding, hcommitment, hderivation,
    hderived, hleaf, hpath, htx, hblock, hroot, hcreated, hroute, hspend, hstatus, hproof, hwarning,
    -⟩ := hlookup
  have hbound : ∀ n ∈ r.leafIndex, n < 2 ^ 53 := fun n hn => by
    have hn' : n ≤ 2 ^ 53 - 1 := h.leafIndex n hn
    omega
  unfold readRecordInput
  simp only [bind_eq_ok, ensure_eq_ok, exists_const, pure_eq_ok, textMember_eq_some, hasset, hamount,
    howner, hsecret, hblinding, hcommitment, hderivation, hderived, hleaf, hpath, htx, hblock, hroot,
    hcreated, hroute, hspend, hstatus, hproof, hwarning]
  exact ⟨_, requireMark_proofStatusText _, _, requireMark_noteStatusText _,
    _, requireMark_derivationText _, _, rfl, rfl, _, rfl, _, rfl, _, rfl, _, rfl, _, rfl, _, rfl,
    _, rfl, _, textOrNull_nullable _, _, textOrNull_nullable _, _, rfl,
    _, naturalOrNull_nullable hbound, _, requireMark_routeText _, _, readSpent_docs _,
    _, readMerklePath_docs h.pathIndices, rfl⟩

/-- A record with its pool as the app spells it. -/
def respelled (r : SandboxSpendMaterialNoteRecord) : SandboxSpendMaterialNoteRecord :=
  { r with pool := respell r.pool }

/-- Without an expected deployment, that of the pool is expected. -/
theorem resolveExpectedNoteRecordDeployment_none (h : RecordFits r) :
    ∃ expected, resolveExpectedNoteRecordDeployment none r.pool = .ok expected ∧
      (∀ expectedId ∈ expected.chainId, r.chainId = expectedId) ∧
      (∀ expectedUrl ∈ expected.rpcUrl, r.rpcUrl = expectedUrl) ∧
      expected.pool = respell r.pool := by
  unfold resolveExpectedNoteRecordDeployment resolveExpectedPool knownNoteRecordDeploymentForPool
    respell
  by_cases hknown : lower r.pool = lower shieldedPoolAddress
  · obtain ⟨hchain, hurl⟩ := h.supported.known hknown
    simp only [if_pos hknown, bind_eq_ok, ensure_eq_ok, exists_const, pure_eq_ok]
    exact ⟨_, ⟨h.pool, h.supported.notLegacy, rfl⟩, fun _ hid => Option.some.inj hid ▸ hchain,
      fun _ heq => Option.some.inj heq ▸ hurl, rfl⟩
  · simp only [if_neg hknown, bind_eq_ok, ensure_eq_ok, exists_const, pure_eq_ok]
    exact ⟨_, ⟨h.pool, h.supported.notLegacy, rfl⟩, fun _ hid => (nomatch hid),
      fun _ heq => (nomatch heq), rfl⟩

/-- The app makes the record once more. -/
theorem create_inputOf (h : RecordFits r) :
    createSandboxSpendMaterialNoteRecord (inputOf r (respell r.pool)) = .ok (respelled r) := by
  have hlower := lower_respell r.pool
  have hpool : isEvmAddress (respell r.pool) := by
    unfold respell
    split_ifs
    · decide
    · exact h.pool
  have hstatus : r.spendStatus =
      ⟨r.recoveryRoute, r.commitment, r.leafIndex, r.spendStatus.spent⟩ := by
    obtain ⟨hroute, hcommitment, hleaf⟩ := h.spendStatus
    rw [← hroute, ← hcommitment, ← hleaf]
  have hsupported : Supported ⟨r.chainId, r.rpcUrl, respell r.pool⟩ := {
    notLegacy := by
      dsimp only
      rw [hlower]
      exact h.supported.notLegacy
    chainId := h.supported.chainId
    rpcUrl := h.supported.rpcUrl
    known := fun hknown => by
      dsimp only at hknown
      rw [hlower] at hknown
      exact h.supported.known hknown }
  refine createSandboxSpendMaterialNoteRecord_eq_ok.mpr
    ⟨{ h with pool := hpool, supported := hsupported }, ?_⟩
  rw [respelled, hstatus]
  rfl

theorem parseRecordMembers_docs (h : RecordFits r) :
    parseRecordMembers (valueMembers (recordDocs r)) none = .ok (respelled r) := by
  have hinput := readRecordInput_docs h (respell r.pool)
  have hlookup := lookup_recordDocs (r := r)
  generalize valueMembers (recordDocs r) = members at hlookup hinput ⊢
  simp only [recordDocs, List.forall_mem_cons] at hlookup
  obtain ⟨hversion, hchain, hurl, hpool, -⟩ := hlookup
  obtain ⟨expected, hexpected, hid, hexpectedUrl, hspelled⟩ :=
    resolveExpectedNoteRecordDeployment_none h
  have hbound : r.chainId < 2 ^ 53 := by
    rcases h.supported.chainId with hchain | hchain <;> dsimp only at hchain <;> omega
  have hnatural : naturalMember members "chainId" = some r.chainId :=
    naturalMember_eq_some.mpr ⟨hchain, hbound⟩
  have hsupported : requireRecordChainId (some r.chainId) = .ok r.chainId :=
    if_pos h.supported.chainId
  have hlower : lower r.pool = lower expected.pool := by rw [hspelled, lower_respell]
  rw [← hspelled] at hinput
  have hcreated := create_inputOf h
  rw [← hspelled] at hcreated
  unfold parseRecordMembers
  simp only [bind_eq_ok, ensure_eq_ok, exists_const, textMember_eq_some, hnatural, hurl, hpool]
  exact ⟨hversion, _, hsupported, _, rfl, h.supported.rpcUrl, _, rfl, h.supported.notLegacy, _,
    hexpected, hid, hexpectedUrl, hlower, _, hinput, hcreated⟩

/-- **A record is read back** from its members. -/
theorem parseRecordValue_docs (keccak256 : Bytes → Bytes32) (h : RecordFits r) :
    parseRecordValue keccak256 (Doc.object (recordDocs r)).value none = .ok (respelled r) := by
  have hnames : (valueMembers (recordDocs r)).map (·.1) = recordNames := by
    rw [valueMembers_eq_map, List.map_map, ← names_recordDocs (r := r)]
    rfl
  have hout : "domain".toList ∉ recordNames := by decide
  have hdomain : textMember (valueMembers (recordDocs r)) "domain" ≠ some recoveryKitV1Domain := by
    rw [Ne, textMember_eq_some, lookup_eq_none (by rw [hnames]; exact hout)]
    exact (Option.some_ne_none _).symm
  rw [Doc.value]
  unfold parseRecordValue membersOf
  dsimp only
  rw [if_neg hdomain]
  exact parseRecordMembers_docs h

end Records

/-! ### The vault is read back -/

section Vault
variable {entries : List SandboxNoteVaultEntry} {e : SandboxNoteVaultEntry}

/-- **An entry the app made** of a record it made. -/
def IsEntry (e : SandboxNoteVaultEntry) : Prop :=
  ∃ record spent spentNullifier updatedAt, IsRecord record ∧
    createSandboxNoteVaultEntry record spent spentNullifier updatedAt = .ok e

theorem IsEntry.fits (h : IsEntry e) :
    RecordFits e.record ∧ e.updatedAt ≠ [] ∧ ∀ t ∈ e.spentNullifier, isHexBytes32 t := by
  obtain ⟨record, spent, spentNullifier, updatedAt, hrecord, hcreate⟩ := h
  obtain ⟨hupdated, hnullifier, rfl⟩ := createSandboxNoteVaultEntry_eq_ok.mp hcreate
  exact ⟨hrecord.fits, hupdated, hnullifier⟩

def respelledEntry (e : SandboxNoteVaultEntry) : SandboxNoteVaultEntry :=
  { e with record := respelled e.record }

/-- **An entry is read back.** -/
theorem parseEntry_docs (keccak256 : Bytes → Bytes32) (h : IsEntry e) :
    parseEntry keccak256 (Doc.object (entryDocs e)).value = .ok (respelledEntry e) := by
  obtain ⟨hrecord, hupdated, hnullifier⟩ := h.fits
  have hnodup : ((entryDocs e).map (·.1)).Nodup :=
    (by decide : (["version", "record", "spent", "spentNullifier", "updatedAt"].map
      String.toList).Nodup)
  have hlookup := lookup_valueMembers hnodup
  have hparse := parseRecordValue_docs keccak256 hrecord
  rw [← reread_value] at hparse
  rw [Doc.value]
  unfold parseEntry membersOf
  generalize valueMembers (entryDocs e) = members at hlookup ⊢
  simp only [entryDocs, List.forall_mem_cons] at hlookup
  obtain ⟨hversion, hmember, hspent, hspentNullifier, hupdatedAt, -⟩ := hlookup
  simp only [bind_eq_ok, ensure_eq_ok, exists_const, textMember_eq_some, hmember, hspent,
    hspentNullifier, hupdatedAt]
  exact ⟨hversion, _, rfl, _, hparse, _, textOrNull_nullable _, _, rfl,
    createSandboxNoteVaultEntry_eq_ok.mpr ⟨hupdated, hnullifier, rfl⟩⟩

theorem exact_recordDocs {r : SandboxSpendMaterialNoteRecord} (h : RecordFits r) :
    (Doc.object (recordDocs r)).Exact := by
  have hchain : r.chainId < 2 ^ 53 := by
    rcases h.supported.chainId with hchain | hchain <;> dsimp only at hchain <;> omega
  have hleaf : (nullable Doc.number r.leafIndex).Exact := by
    cases hr : r.leafIndex with
    | none => trivial
    | some n =>
      have hn : n ≤ 2 ^ 53 - 1 := h.leafIndex n hr
      have hlt : n < 2 ^ 53 := by omega
      exact hlt
  have htext : ∀ o : Option Text, (nullable Doc.string o).Exact := fun o => by cases o <;> trivial
  have hspent : (nullable Doc.bool r.spendStatus.spent).Exact := by
    cases r.spendStatus.spent <;> trivial
  have hsiblings : (Doc.array (r.merklePath.siblings.map .string)).Exact :=
    exactItems_iff.mpr fun d hd => by
      obtain ⟨t, -, rfl⟩ := List.mem_map.mp hd
      trivial
  have hindices : (Doc.array (r.merklePath.pathIndices.map .number)).Exact :=
    exactItems_iff.mpr fun d hd => by
      obtain ⟨i, hi, rfl⟩ := List.mem_map.mp hd
      have hlt : i < 2 ^ 53 := by rcases h.pathIndices i hi with rfl | rfl <;> decide
      exact hlt
  have hpath : (Doc.object (merklePathDocs r.merklePath)).Exact := by
    refine exactMembers_iff.mpr ?_
    simp only [merklePathDocs, List.forall_mem_cons]
    exact ⟨htext _, hsiblings, hindices, trivial, fun _ hm => absurd hm List.not_mem_nil⟩
  have hspend : (Doc.object (spendStatusDocs r.spendStatus)).Exact := by
    refine exactMembers_iff.mpr ?_
    simp only [spendStatusDocs, List.forall_mem_cons, h.spendStatus.2.2]
    exact ⟨trivial, trivial, hleaf, hspent, fun _ hm => absurd hm List.not_mem_nil⟩
  refine exactMembers_iff.mpr ?_
  simp only [recordDocs, List.forall_mem_cons]
  exact ⟨trivial, hchain, trivial, trivial, trivial, trivial, trivial, trivial, trivial, trivial,
    trivial, trivial, hleaf, hpath, trivial, htext _, htext _, trivial, trivial, hspend, trivial,
    trivial, trivial, fun _ hm => absurd hm List.not_mem_nil⟩

theorem exact_vaultDoc (h : ∀ e ∈ entries, IsEntry e) : (vaultDoc entries).Exact := by
  have hentry : ∀ e ∈ entries, (Doc.object (entryDocs e)).Exact := by
    intro e he
    have hnullifier : (nullable Doc.string e.spentNullifier).Exact := by
      cases e.spentNullifier <;> trivial
    refine exactMembers_iff.mpr ?_
    simp only [entryDocs, List.forall_mem_cons]
    exact ⟨trivial, exact_recordDocs (h e he).fits.1, trivial, hnullifier, trivial,
      fun _ hm => absurd hm List.not_mem_nil⟩
  have hentries : (Doc.array (entries.map fun e => .object (entryDocs e))).Exact :=
    exactItems_iff.mpr fun d hd => by
      obtain ⟨e, he, rfl⟩ := List.mem_map.mp hd
      exact hentry e he
  refine exactMembers_iff.mpr ?_
  simp only [List.forall_mem_cons]
  exact ⟨trivial, hentries, fun _ hm => absurd hm List.not_mem_nil⟩

/-- The entries are read one by one. -/
theorem mapM_parseEntry (keccak256 : Bytes → Bytes32) : ∀ {entries : List SandboxNoteVaultEntry},
    (∀ e ∈ entries, IsEntry e) →
    (valueItems (entries.map fun e => .object (entryDocs e))).mapM (parseEntry keccak256) =
      .ok (entries.map respelledEntry)
  | [], _ => rfl
  | e :: entries, h => by
    have hentry := parseEntry_docs keccak256 (h e List.mem_cons_self)
    have hrest := mapM_parseEntry keccak256 fun e' he' => h e' (List.mem_cons_of_mem e he')
    rw [List.map_cons, valueItems, List.mapM_cons, hentry, ok_bind, hrest, ok_bind]
    rfl

/-- **A vault is read from its text.** -/
theorem parseSandboxNoteVault_serialize (keccak256 : Bytes → Bytes32)
    (h : ∀ e ∈ entries, IsEntry e) :
    parseSandboxNoteVault keccak256 (serializeSandboxNoteVault entries) =
      .ok (entries.map respelledEntry) := by
  have hnodup : (["version", "entries"].map String.toList).Nodup := by decide
  have hlookup := @lookup_valueMembers [("version".toList, .string sandboxNoteVaultVersion),
    ("entries".toList, .array (entries.map fun e => .object (entryDocs e)))] hnodup
  have hmap := mapM_parseEntry keccak256 h
  unfold parseSandboxNoteVault serializeSandboxNoteVault
  rw [parse_print 2 (exact_vaultDoc h), vaultDoc, Doc.value]
  dsimp only [membersOf]
  generalize valueMembers [("version".toList, Doc.string sandboxNoteVaultVersion),
    ("entries".toList, .array (entries.map fun e => .object (entryDocs e)))] = members at hlookup ⊢
  simp only [List.forall_mem_cons] at hlookup
  obtain ⟨hversion, hentries, -⟩ := hlookup
  have hitems : vaultEntries members =
      .ok (valueItems (entries.map fun e => .object (entryDocs e))) := by
    rw [vaultEntries, hentries, Doc.value]
    exact if_pos (textMember_eq_some.mpr hversion)
  rw [hitems, ok_bind, hmap]

theorem serializeSandboxNoteVault_ne_nil : serializeSandboxNoteVault entries ≠ [] := by
  obtain ⟨c, t, hprint, -⟩ := exists_cons_print 2 0 (vaultDoc entries)
  rw [serializeSandboxNoteVault, hprint]
  exact List.cons_ne_nil c t

end Vault

/-- **An entry is another** up to the case of the pool address. -/
structure SameUpToCase (e e' : SandboxNoteVaultEntry) : Prop where
  pool : lower e'.record.pool = lower e.record.pool
  others : { e' with record := { e'.record with pool := e.record.pool } } = e

theorem sameUpToCase_respelledEntry (e : SandboxNoteVaultEntry) :
    SameUpToCase e (respelledEntry e) where
  pool := lower_respell e.record.pool
  others := rfl

/-- **What was saved is loaded**, up to the case of the pool addresses. -/
theorem saved_vault_loads (keccak256 : Bytes → Bytes32) (storage : Storage)
    (entries : List SandboxNoteVaultEntry) (h : ∀ e ∈ entries, IsEntry e) :
    ∃ loaded, loadSandboxNoteVault keccak256 (saveSandboxNoteVault (some storage) entries) =
      .ok loaded ∧ List.Forall₂ SameUpToCase entries loaded := by
  have hparse := parseSandboxNoteVault_serialize keccak256 h
  refine ⟨entries.map respelledEntry, ?_, ?_⟩
  · rw [saveSandboxNoteVault, Option.map_some, loadSandboxNoteVault, Function.update_self]
    split
    · cases ‹some (serializeSandboxNoteVault entries) = none›
    · exact absurd (Option.some.inj ‹_›) serializeSandboxNoteVault_ne_nil
    · rename_i text _ heq
      obtain rfl : serializeSandboxNoteVault entries = text := Option.some.inj heq
      exact hparse
  · rw [List.forall₂_map_right_iff]
    exact List.forall₂_same.mpr fun e _ => sameUpToCase_respelledEntry e

/-- A vault with a spent note and one that is not. -/
def sampleVault : List SandboxNoteVaultEntry :=
  [⟨sampleRecord 7 (some 3), true, some (hex32 9), ['0']⟩, ⟨sampleRecord 8 none, false, none, ['1']⟩]

theorem saved_vault_loads_sample : ∃ loaded,
    loadSandboxNoteVault Lib.Keccak.keccak256
      (saveSandboxNoteVault (some fun _ => none) sampleVault) = .ok loaded ∧
    List.Forall₂ SameUpToCase sampleVault loaded := by
  have hspent : IsEntry ⟨sampleRecord 7 (some 3), true, some (hex32 9), ['0']⟩ :=
    ⟨_, _, _, _, isRecord_sampleRecord (by decide +kernel) (by decide),
      createSandboxNoteVaultEntry_eq_ok.mpr ⟨List.cons_ne_nil _ _,
        fun _ ht => Option.some.inj ht ▸ isHexBytes32_hex32 9, rfl⟩⟩
  have hother : IsEntry ⟨sampleRecord 8 none, false, none, ['1']⟩ :=
    ⟨_, _, _, _, isRecord_sample (by decide +kernel),
      createSandboxNoteVaultEntry_eq_ok.mpr
        ⟨List.cons_ne_nil _ _, fun t ht => absurd ht (Option.not_mem_none t), rfl⟩⟩
  refine saved_vault_loads Lib.Keccak.keccak256 (fun _ => none) sampleVault fun e he => ?_
  rcases List.mem_cons.mp he with rfl | he
  · exact hspent
  · exact List.mem_singleton.mp he ▸ hother

end Nullark.Web.VaultStorage
