import Nullark.Lib.Stringify
import Nullark.Sdk.RecoveryKit

/-! # Recovery kits as texts

`createRecoveryKitV1` makes a kit of a note, `serializeRecoveryKitV1` checks a kit and prints it, and
`parseRecoveryKitV1` reads it. The checks of the second and the third are the same; the first leaves
out some of them.

* `serializeRecoveryKitV1_eq_ok`, `parse_serialize`: what is printed is read back.
* `backup_iff`: the notes whose kits can be printed. -/

namespace Nullark.Sdk.KitTexts

open Nullark.Lib Nullark.Lib.Outcome Nullark.Lib.Stringify
open Nullark.Lib.Hex hiding value Digits ofNat
open Nullark.Lib.Binary64 (Number)
open Nullark.Lib.Json (Value)
open Nullark.Evm.Basic Nullark.Pool.Interface
open Nullark.Js.Basic Nullark.Js.Bytes Nullark.Js.SpendMaterial Nullark.Js.NoteEnvelope
open Nullark.Sdk.RecoveryKit

/-! ### The object of a kit -/

/-- A pool address, as it is printed. -/
def poolAddressDoc : Value → Doc
  | .string t => .string t
  | .array [item] => .array [poolAddressDoc item]
  | _ => .null

/-- The members of a kit, as they are printed. -/
def kitDocs (kit : RecoveryKitV1) : List (Text × Doc) :=
  [("domain".toList, .string recoveryKitV1Domain),
    ("version".toList, .number 1),
    ("recoveryKitSchemaHash".toList, .string recoveryKitV1SchemaHash),
    ("checksumAlgorithm".toList, .string recoveryKitV1ChecksumAlgorithm),
    ("chainId".toList, .number kit.chainId),
    ("poolAddress".toList, poolAddressDoc kit.poolAddress),
    ("runtimeId".toList, .string kit.runtimeId),
    ("noteVersion".toList, .string spendMaterialVersion),
    ("amount".toList, .string kit.amount),
    ("assetId".toList, .string kit.assetId),
    ("ownerCommitment".toList, .string kit.ownerCommitment),
    ("noteSecret".toList, .string kit.noteSecret),
    ("blinding".toList, .string kit.blinding),
    ("commitment".toList, .string kit.commitment),
    ("txHashHint".toList, .string kit.txHashHint),
    ("blockNumberHint".toList, kit.blockNumberHint.elim .null .string),
    ("leafIndexHint".toList, .number kit.leafIndexHint),
    ("createdAt".toList, .string kit.createdAt),
    ("checksum".toList, .string kit.checksum)]

/-- **A kit as an object**, which has its members in some order. -/
structure KitObject where
  kit : RecoveryKitV1
  members : List (Text × Doc)
  perm : members.Perm (kitDocs kit)
  address : (poolAddressDoc kit.poolAddress).value = kit.poolAddress

def KitObject.doc (o : KitObject) : Doc := .object o.members

/-! ### Making and printing a kit -/

/-- What a kit is made from. -/
structure RecoveryKitInput where
  runtime : ClientRuntime
  spendMaterial : SpendMaterialPlaintext
  transactionHash : Text
  leafIndex : Number
  blockNumber : Option Text
  version : spendMaterial.version = spendMaterialVersion

def validateSpendMaterialForRuntime (spendMaterial : SpendMaterialPlaintext)
    (runtime : ClientRuntime) : Throws Unit := do
  ensure (spendMaterial.chainId = runtime.chainId ∧ lower spendMaterial.pool = lower runtime.pool)
    "Recovery kit spend material is not bound to the active runtime."
  ensure (isHexBytes32 spendMaterial.assetId) "Recovery kit asset ID must be bytes32 hex."
  ensure (isHexBytes32 spendMaterial.ownerCommitment)
    "Recovery kit owner commitment must be bytes32 hex."
  ensure (isHexBytes32 spendMaterial.noteSecret) "Recovery kit note secret must be bytes32 hex."
  ensure (isHexBytes32 spendMaterial.blinding) "Recovery kit blinding must be bytes32 hex."
  ensure (isHexBytes32 spendMaterial.commitment) "Recovery kit commitment must be bytes32 hex."
  ensure (Decimal.isDecimal spendMaterial.noteAmountWei ∧
    0 < Decimal.value spendMaterial.noteAmountWei)
    "Recovery kit amount must be positive decimal wei."

def requireLeafIndex : Number → Throws ℕ
  | .finite q =>
    if q.den = 1 ∧ 0 ≤ q.num ∧ q.num < 2 ^ 53 then .ok q.num.toNat
    else .error "Recovery kit leaf index hint must be a non-negative safe integer."
  | .infinite _ => .error "Recovery kit leaf index hint must be a non-negative safe integer."

/-- The kit of a note, with its checksum. -/
def kitOf (keccak256 : Bytes → Bytes32) (input : RecoveryKitInput) (leafIndexHint : ℕ) :
    RecoveryKitV1 :=
  let unsigned : RecoveryKitV1 := {
    chainId := input.runtime.chainId, poolAddress := .string input.runtime.pool
    runtimeId := input.runtime.productVersion, amount := input.spendMaterial.noteAmountWei
    assetId := input.spendMaterial.assetId, ownerCommitment := input.spendMaterial.ownerCommitment
    noteSecret := input.spendMaterial.noteSecret, blinding := input.spendMaterial.blinding
    commitment := input.spendMaterial.commitment, txHashHint := input.transactionHash
    blockNumberHint := input.blockNumber, leafIndexHint
    createdAt := input.spendMaterial.createdAt, checksum := [] }
  { unsigned with checksum := checksumRecoveryKit keccak256 unsigned }

def objectOf (keccak256 : Bytes → Bytes32) (input : RecoveryKitInput) (leafIndexHint : ℕ) :
    KitObject where
  kit := kitOf keccak256 input leafIndexHint
  members := kitDocs (kitOf keccak256 input leafIndexHint)
  perm := List.Perm.refl _
  address := rfl

section Code
variable (keccak256 : Bytes → Bytes32)

/-- **`createRecoveryKitV1`**. -/
def createRecoveryKitV1 (input : RecoveryKitInput) : Throws KitObject := do
  validateSpendMaterialForRuntime input.spendMaterial input.runtime
  ensure (isHexBytes32 input.transactionHash)
    "Recovery kit transaction hash hint must be bytes32 hex."
  ensure (∀ t ∈ input.blockNumber, isBlockQuantity t)
    "Recovery kit block number hint must be a hex block quantity."
  let leafIndexHint ← requireLeafIndex input.leafIndex
  return objectOf keccak256 input leafIndexHint

/-- **`serializeRecoveryKitV1`**. -/
def serializeRecoveryKitV1 (o : KitObject) : Throws Text := do
  let _ ← validateRecoveryKitV1 keccak256 o.doc.value
  return print 2 0 o.doc

end Code

/-! ### What is printed is read back -/

theorem kitMembers_eq_map {kit : RecoveryKitV1}
    (h : (poolAddressDoc kit.poolAddress).value = kit.poolAddress) :
    kitMembers kit = (kitDocs kit).map fun m => (m.1, m.2.value) := by
  have hblock : (kit.blockNumberHint.elim Doc.null Doc.string).value =
      kit.blockNumberHint.elim Value.null Value.string := by
    cases kit.blockNumberHint <;> rfl
  simp only [kitDocs, List.map_cons, List.map_nil, h, hblock]
  rfl

theorem poolAddressDoc_value : ∀ {v : Value} {t : Text}, poolAddressText v = some t →
    (poolAddressDoc v).value = v
  | .string _, _, _ => rfl
  | .array [item], t, h => by
    have hitem := poolAddressDoc_value (v := item) h
    exact congrArg (fun v => Value.array [v]) hitem

/-- The members of a kit, in any order, are those of the kit. -/
theorem KitObject.reads (o : KitObject) : Reads (valueMembers o.members) o.kit := by
  have hmap : (o.members.map fun m => (m.1, m.2.value)).Perm (kitMembers o.kit) := by
    rw [kitMembers_eq_map o.address]
    exact o.perm.map _
  have hnames : ((o.members.map fun m => (m.1, m.2.value)).map (·.1)).Perm expectedKeys :=
    hmap.map _
  have hnodup := hnames.nodup_iff.mpr nodup_expectedKeys
  have hindex : ∀ name ∈ expectedKeys, Json.isIndex name = false := by decide
  rw [valueMembers_eq_map]
  refine ⟨?_, fun m hm => Json.lookup_of_mem hnodup (hmap.mem_iff.mpr hm)⟩
  rwa [keys_of_nodup hnodup fun name hname => hindex name (hnames.mem_iff.mp hname)]

theorem elim_null_string_injective {b b' : Option Text}
    (h : b.elim Value.null Value.string = b'.elim Value.null Value.string) : b = b' := by
  cases b <;> cases b' <;> cases h <;> rfl

/-- Kits with the same members are one. -/
theorem kitMembers_injective {k k' : RecoveryKitV1} (h : kitMembers k = kitMembers k') : k = k' := by
  simp only [kitMembers, List.cons.injEq, Prod.mk.injEq, true_and, and_true, Value.string.injEq,
    Value.number.injEq, Number.finite.injEq, Nat.cast_inj] at h
  obtain ⟨hchain, hpool, hruntime, hamount, hasset, howner, hsecret, hblinding, hcommitment, htx,
    hblock, hleaf, hcreated, hchecksum⟩ := h
  cases k
  cases k'
  dsimp only at *
  rw [hchain, hpool, hruntime, hamount, hasset, howner, hsecret, hblinding, hcommitment, htx,
    elim_null_string_injective hblock, hleaf, hcreated, hchecksum]

/-- An object is that of one kit. -/
theorem reads_unique {members : List (Text × Value)} {k k' : RecoveryKitV1} (h : Reads members k)
    (h' : Reads members k') : k = k' := by
  have hread : ∀ {kit : RecoveryKitV1}, Reads members kit → kitMembers kit =
      expectedKeys.map fun name => (name, (Json.lookup members name).getD .null) := by
    intro kit hkit
    rw [← @names_kitMembers kit, List.map_map]
    refine (List.map_id _).symm.trans (List.map_congr_left fun m hm => ?_)
    rw [Function.comp_apply, hkit.lookup m hm]
    rfl
  exact kitMembers_injective ((hread h).trans (hread h').symm)

theorem exact_poolAddressDoc : ∀ v : Value, (poolAddressDoc v).Exact
  | .string _ | .null | .bool _ | .number _ | .object _ | .array [] | .array (_ :: _ :: _) => trivial
  | .array [item] => ⟨exact_poolAddressDoc item, trivial⟩

theorem KitObject.exact {o : KitObject} (h : KitFits o.kit) : o.doc.Exact := by
  have hblock : (o.kit.blockNumberHint.elim Doc.null Doc.string).Exact := by
    cases o.kit.blockNumberHint <;> trivial
  have hdocs : ∀ m ∈ kitDocs o.kit, m.2.Exact := by
    simp only [kitDocs, List.forall_mem_cons]
    exact ⟨trivial, (by decide : 1 < 2 ^ 53), trivial, trivial, h.chainId.2, exact_poolAddressDoc _,
      trivial, trivial, trivial, trivial, trivial, trivial, trivial, trivial, trivial, hblock,
      h.leafIndexHint, trivial, trivial, fun _ hm => absurd hm List.not_mem_nil⟩
  exact exactMembers_iff.mpr fun m hm => hdocs m (o.perm.mem_iff.mp hm)

section Printed
variable {keccak256 : Bytes → Bytes32} {o : KitObject} {text : Text}

theorem validateRecoveryKitV1_doc {kit : RecoveryKitV1} :
    validateRecoveryKitV1 keccak256 o.doc.value = .ok kit ↔
      kit = o.kit ∧ KitFits o.kit ∧ Summed keccak256 o.kit := by
  rw [validateRecoveryKitV1_eq_ok, KitObject.doc, Doc.value]
  constructor
  · rintro ⟨members, heq, hreads, hfits, hsum⟩
    obtain rfl := Value.object.inj heq
    obtain rfl := reads_unique hreads o.reads
    exact ⟨rfl, hfits, hsum⟩
  · rintro ⟨rfl, hfits, hsum⟩
    exact ⟨_, rfl, o.reads, hfits, hsum⟩

/-- **A kit is printed** if it fits and has its checksum. -/
theorem serializeRecoveryKitV1_eq_ok : serializeRecoveryKitV1 keccak256 o = .ok text ↔
    KitFits o.kit ∧ Summed keccak256 o.kit ∧ text = print 2 0 o.doc := by
  unfold serializeRecoveryKitV1
  simp only [bind_eq_ok, pure_eq_ok, validateRecoveryKitV1_doc]
  constructor
  · rintro ⟨_, ⟨rfl, hfits, hsum⟩, rfl⟩
    exact ⟨hfits, hsum, rfl⟩
  · rintro ⟨hfits, hsum, rfl⟩
    exact ⟨_, ⟨rfl, hfits, hsum⟩, rfl⟩

/-- **What was printed is read back.** -/
theorem parse_serialize (h : serializeRecoveryKitV1 keccak256 o = .ok text) :
    parseRecoveryKitV1 keccak256 text = .ok o.kit := by
  obtain ⟨hfits, hsum, rfl⟩ := serializeRecoveryKitV1_eq_ok.mp h
  rw [parseRecoveryKitV1, parse_print 2 (KitObject.exact hfits)]
  exact validateRecoveryKitV1_doc.mpr ⟨rfl, hfits, hsum⟩

end Printed

/-! ### The kits of notes -/

/-- **What `createRecoveryKitV1` leaves out** of the checks of a kit. -/
structure Restorable (input : RecoveryKitInput) : Prop where
  chainId : 0 < input.runtime.chainId ∧ input.runtime.chainId < 2 ^ 53
  pool : isEvmAddress input.runtime.pool
  productVersion : input.runtime.productVersion ≠ []
  createdAt : input.spendMaterial.createdAt ≠ []

/-- What `createRecoveryKitV1` checks. -/
structure NoteFits (input : RecoveryKitInput) : Prop where
  bound : input.spendMaterial.chainId = input.runtime.chainId ∧
    lower input.spendMaterial.pool = lower input.runtime.pool
  assetId : isHexBytes32 input.spendMaterial.assetId
  ownerCommitment : isHexBytes32 input.spendMaterial.ownerCommitment
  noteSecret : isHexBytes32 input.spendMaterial.noteSecret
  blinding : isHexBytes32 input.spendMaterial.blinding
  commitment : isHexBytes32 input.spendMaterial.commitment
  amount : Decimal.isDecimal input.spendMaterial.noteAmountWei ∧
    0 < Decimal.value input.spendMaterial.noteAmountWei
  transactionHash : isHexBytes32 input.transactionHash
  blockNumber : ∀ t ∈ input.blockNumber, isBlockQuantity t

section Created
variable {keccak256 : Bytes → Bytes32} {input : RecoveryKitInput} {o : KitObject} {n : ℕ}

theorem requireLeafIndex_lt {x : Number} (h : requireLeafIndex x = .ok n) : n < 2 ^ 53 := by
  cases x with
  | finite q =>
    obtain ⟨hq, rfl⟩ := ite_error_eq_ok.mp h
    omega
  | infinite negative => cases h

theorem createRecoveryKitV1_eq_ok : createRecoveryKitV1 keccak256 input = .ok o ↔
    NoteFits input ∧ ∃ n, requireLeafIndex input.leafIndex = .ok n ∧
      o = objectOf keccak256 input n := by
  unfold createRecoveryKitV1 validateSpendMaterialForRuntime
  simp only [bind_eq_ok, ensure_eq_ok, exists_const, pure_eq_ok]
  constructor
  · rintro ⟨⟨hbound, hasset, howner, hsecret, hblinding, hcommitment, hamount⟩, htx, hblock, n,
      hleaf, rfl⟩
    exact ⟨⟨hbound, hasset, howner, hsecret, hblinding, hcommitment, hamount, htx, hblock⟩, n, hleaf,
      rfl⟩
  · rintro ⟨h, n, hleaf, rfl⟩
    exact ⟨⟨h.bound, h.assetId, h.ownerCommitment, h.noteSecret, h.blinding, h.commitment, h.amount⟩,
      h.transactionHash, h.blockNumber, n, hleaf, rfl⟩

/-- The checksum of a new kit is its own. -/
theorem summed_kitOf : Summed keccak256 (kitOf keccak256 input n) :=
  ⟨isHexBytes32_hex32 _, rfl⟩

/-- **The kit of a note fits** if what was left out holds. -/
theorem kitFits_kitOf (h : NoteFits input) (hn : n < 2 ^ 53) :
    KitFits (kitOf keccak256 input n) ↔ Restorable input := by
  constructor
  · intro hfits
    obtain ⟨t, ht, haddress⟩ := hfits.poolAddress
    obtain rfl : input.runtime.pool = t := Option.some.inj ht
    exact ⟨hfits.chainId, haddress, hfits.runtimeId, hfits.createdAt⟩
  · intro hleft
    exact {
      chainId := hleft.chainId, poolAddress := ⟨_, rfl, hleft.pool⟩
      runtimeId := hleft.productVersion, amount := h.amount, assetId := h.assetId
      ownerCommitment := h.ownerCommitment, noteSecret := h.noteSecret, blinding := h.blinding
      commitment := h.commitment, txHashHint := h.transactionHash
      blockNumberHint := h.blockNumber, leafIndexHint := hn, createdAt := hleft.createdAt }

end Created

/-- A kit that was read is an object, whatever the order of its members. -/
theorem exists_object {keccak256 : Bytes → Bytes32} {text : Text} {kit : RecoveryKitV1}
    (h : parseRecoveryKitV1 keccak256 text = .ok kit) {members : List (Text × Doc)}
    (hperm : members.Perm (kitDocs kit)) :
    (∃ o : KitObject, o.kit = kit ∧ o.members = members) ∧ KitFits kit ∧ Summed keccak256 kit := by
  unfold parseRecoveryKitV1 at h
  split at h
  · cases h
  · obtain ⟨_, -, -, hfits, hsum⟩ := validateRecoveryKitV1_eq_ok.mp h
    obtain ⟨t, ht, -⟩ := hfits.poolAddress
    exact ⟨⟨⟨kit, members, hperm, poolAddressDoc_value ht⟩, rfl, rfl⟩, hfits, hsum⟩

/-- **Backups are read back** exactly if the runtime and the note pass the checks that are left out
when a kit is made; a kit that was read can be printed and read again. -/
theorem backup_iff (keccak256 : Bytes → Bytes32) :
    (∀ input o, createRecoveryKitV1 keccak256 input = .ok o →
      ((∃ text, serializeRecoveryKitV1 keccak256 o = .ok text ∧
        parseRecoveryKitV1 keccak256 text = .ok o.kit ∧ Summed keccak256 o.kit) ↔
          Restorable input)) ∧
    ∀ text kit, parseRecoveryKitV1 keccak256 text = .ok kit → ∀ members : List (Text × Doc),
      members.Perm (kitDocs kit) → ∃ o : KitObject, o.kit = kit ∧ o.members = members ∧
        ∃ text', serializeRecoveryKitV1 keccak256 o = .ok text' ∧
          parseRecoveryKitV1 keccak256 text' = .ok kit := by
  constructor
  · intro input o h
    obtain ⟨hnote, n, hleaf, rfl⟩ := createRecoveryKitV1_eq_ok.mp h
    rw [← @kitFits_kitOf keccak256 _ _ hnote (requireLeafIndex_lt hleaf)]
    constructor
    · rintro ⟨text, htext, -, -⟩
      exact (serializeRecoveryKitV1_eq_ok.mp htext).1
    · intro hfits
      have hsum : Summed keccak256 (objectOf keccak256 input n).kit := summed_kitOf
      have htext := serializeRecoveryKitV1_eq_ok.mpr ⟨hfits, hsum, rfl⟩
      exact ⟨_, htext, parse_serialize htext, hsum⟩
  · intro text kit h members hperm
    obtain ⟨⟨o, rfl, rfl⟩, hfits, hsum⟩ := exists_object h hperm
    have htext := serializeRecoveryKitV1_eq_ok.mpr ⟨hfits, hsum, rfl⟩
    exact ⟨o, rfl, rfl, _, htext, parse_serialize htext⟩

/-- A note for the testnet, with a time of its own. -/
def sampleInput (createdAt : Text) : RecoveryKitInput where
  runtime := ⟨"megaeth-testnet-nullark".toList, 6343, addressText 5, "nullark-v1.2".toList⟩
  spendMaterial := {
    version := spendMaterialVersion, chainId := 6343, pool := addressText 5, assetId := hex32 1
    noteAmountWei := "100".toList, ownerCommitment := hex32 2, noteSecret := hex32 3
    blinding := hex32 4, commitment := hex32 7, createdAt }
  transactionHash := hex32 8
  leafIndex := .finite 0
  blockNumber := some "0x1".toList
  version := rfl

theorem noteFits_sampleInput (createdAt : Text) : NoteFits (sampleInput createdAt) where
  bound := ⟨rfl, rfl⟩
  assetId := isHexBytes32_hex32 1
  ownerCommitment := isHexBytes32_hex32 2
  noteSecret := isHexBytes32_hex32 3
  blinding := isHexBytes32_hex32 4
  commitment := isHexBytes32_hex32 7
  amount := (by decide : Decimal.isDecimal "100".toList ∧ 0 < Decimal.value "100".toList)
  transactionHash := isHexBytes32_hex32 8
  blockNumber := (by decide : ∀ t ∈ some "0x1".toList, isBlockQuantity t)

theorem createRecoveryKitV1_sampleInput (keccak256 : Bytes → Bytes32) (createdAt : Text) :
    createRecoveryKitV1 keccak256 (sampleInput createdAt) =
      .ok (objectOf keccak256 (sampleInput createdAt) 0) :=
  have hleaf : requireLeafIndex (.finite 0) = .ok 0 := by decide
  createRecoveryKitV1_eq_ok.mpr ⟨noteFits_sampleInput createdAt, 0, hleaf, rfl⟩

/-- A note that has a time is backed up, and its kit is read from the members in another order. -/
theorem backup_iff_sample : ∃ text o text',
    serializeRecoveryKitV1 Keccak.keccak256 (objectOf Keccak.keccak256 (sampleInput ['0']) 0) =
      .ok text ∧
    parseRecoveryKitV1 Keccak.keccak256 text = .ok (kitOf Keccak.keccak256 (sampleInput ['0']) 0) ∧
    o.members = (kitDocs (kitOf Keccak.keccak256 (sampleInput ['0']) 0)).reverse ∧
    serializeRecoveryKitV1 Keccak.keccak256 o = .ok text' ∧
    parseRecoveryKitV1 Keccak.keccak256 text' =
      .ok (kitOf Keccak.keccak256 (sampleInput ['0']) 0) := by
  have hleft : Restorable (sampleInput ['0']) :=
    ⟨(by decide : 0 < 6343 ∧ 6343 < 2 ^ 53), isEvmAddress_addressText 5, List.cons_ne_nil _ _,
      List.cons_ne_nil _ _⟩
  obtain ⟨text, htext, hparse, -⟩ := ((backup_iff Keccak.keccak256).1 (sampleInput ['0']) _
    (createRecoveryKitV1_sampleInput _ _)).mpr hleft
  obtain ⟨o, -, hmembers, text', htext', hparse'⟩ :=
    (backup_iff Keccak.keccak256).2 text _ hparse _ (List.reverse_perm _)
  exact ⟨text, o, text', htext, hparse, hmembers, htext', hparse'⟩

/-- A note without a time has a kit that cannot be printed. -/
theorem kit_without_time_unreadable :
    createRecoveryKitV1 Keccak.keccak256 (sampleInput []) =
      .ok (objectOf Keccak.keccak256 (sampleInput []) 0) ∧
    ∀ text, serializeRecoveryKitV1 Keccak.keccak256
      (objectOf Keccak.keccak256 (sampleInput []) 0) ≠ .ok text := by
  refine ⟨createRecoveryKitV1_sampleInput _ _, fun text htext => ?_⟩
  obtain ⟨hfits, -, -⟩ := serializeRecoveryKitV1_eq_ok.mp htext
  exact hfits.createdAt rfl

end Nullark.Sdk.KitTexts
