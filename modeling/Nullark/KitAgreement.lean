import Nullark.Web.RecoveryKits

/-! # The two readers of recovery kits

The SDK and the app check a kit each on its own. They differ in the address of the pool: the SDK
checks the text that `String` makes of it, and so takes an address in an array for the address.

* `canonicalJson_injective`: the text that is summed determines the kit.
* `validators_agree_iff`: the values that both readers treat alike. -/

namespace Nullark.KitAgreement

open Nullark.Lib Nullark.Lib.Stringify
open Nullark.Lib.Hex hiding value Digits ofNat
open Nullark.Lib.Binary64 (Number)
open Nullark.Lib.Json (Value)
open Nullark.Evm.Basic Nullark.Pool.Interface
open Nullark.Js.Basic Nullark.Js.Bytes Nullark.Js.SpendMaterial Nullark.Js.NoteEnvelope
open Nullark.Web.NoteRecords (isSupportedMegaEthChainId)
open Nullark.Sdk.RecoveryKit Nullark.Sdk.KitTexts

/-! ### The text that is summed -/

/-- The members that are summed, as they are printed. -/
def canonicalDocs (kit : RecoveryKitV1) : List (Text × Doc) :=
  [("amount".toList, .string kit.amount),
    ("assetId".toList, .string kit.assetId),
    ("blinding".toList, .string kit.blinding),
    ("blockNumberHint".toList, kit.blockNumberHint.elim .null .string),
    ("chainId".toList, .number kit.chainId),
    ("checksumAlgorithm".toList, .string recoveryKitV1ChecksumAlgorithm),
    ("commitment".toList, .string kit.commitment),
    ("createdAt".toList, .string kit.createdAt),
    ("domain".toList, .string recoveryKitV1Domain),
    ("leafIndexHint".toList, .number kit.leafIndexHint),
    ("noteSecret".toList, .string kit.noteSecret),
    ("noteVersion".toList, .string spendMaterialVersion),
    ("ownerCommitment".toList, .string kit.ownerCommitment),
    ("poolAddress".toList, poolAddressDoc kit.poolAddress),
    ("recoveryKitSchemaHash".toList, .string recoveryKitV1SchemaHash),
    ("runtimeId".toList, .string kit.runtimeId),
    ("txHashHint".toList, .string kit.txHashHint),
    ("version".toList, .number 1)]

theorem print_poolAddressDoc : ∀ {v : Value} {t : Text} (depth : ℕ), poolAddressText v = some t →
    print 0 depth (poolAddressDoc v) = canonicalPoolAddress v
  | .string s, _, _, _ => by rw [poolAddressDoc, print, canonicalPoolAddress]
  | .array [item], t, depth, h => by
    have hitem := print_poolAddressDoc (v := item) (depth + 1) h
    have hnew : ∀ n, newline 0 n = [] := fun _ => rfl
    rw [canonicalPoolAddress, ← hitem, poolAddressDoc, print, hnew, hnew, printItems]
    rfl

/-- **The text that is summed** is that of an object. -/
theorem canonicalJson_eq_print {kit : RecoveryKitV1} (h : KitFits kit) :
    canonicalJson kit = print 0 0 (.object (canonicalDocs kit)) := by
  obtain ⟨t, ht, -⟩ := h.poolAddress
  have hpool := print_poolAddressDoc 1 ht
  have hblock : print 0 1 (kit.blockNumberHint.elim .null .string) =
      kit.blockNumberHint.elim "null".toList Json.printString := by
    cases kit.blockNumberHint with
    | none => rw [Option.elim_none, Option.elim_none, print]; rfl
    | some b => rw [Option.elim_some, Option.elim_some, print]
  have hmember : ∀ name d, printMember 0 1 (name, d) = Json.printString name ++ ':' :: print 0 1 d :=
    fun name d => by rw [printMember]; rfl
  have hstring : ∀ s, print 0 1 (.string s) = Json.printString s := fun s => by rw [print]
  have hnumber : ∀ n, print 0 1 (.number n) = Decimal.ofNat n := fun n => by rw [print]
  rw [print_object_zero, canonicalJson]
  simp only [canonicalMembers, canonicalDocs, List.map_cons, List.map_nil, hmember, hstring, hnumber,
    hpool, hblock]

theorem exact_canonicalDocs {kit : RecoveryKitV1} (h : KitFits kit) :
    (Doc.object (canonicalDocs kit)).Exact := by
  have hblock : (kit.blockNumberHint.elim Doc.null Doc.string).Exact := by
    cases kit.blockNumberHint <;> trivial
  refine exactMembers_iff.mpr ?_
  simp only [canonicalDocs, List.forall_mem_cons]
  exact ⟨trivial, trivial, trivial, hblock, h.chainId.2, trivial, trivial, trivial, trivial,
    h.leafIndexHint, trivial, trivial, trivial, exact_poolAddressDoc _, trivial, trivial, trivial,
    (by decide : 1 < 2 ^ 53), fun _ hm => absurd hm List.not_mem_nil⟩

/-- **The text that is summed determines the kit**, its checksum apart. -/
theorem canonicalJson_injective {k k' : RecoveryKitV1} (h : KitFits k) (h' : KitFits k')
    (heq : canonicalJson k = canonicalJson k') :
    { k with checksum := [] } = { k' with checksum := [] } := by
  obtain ⟨t, ht, -⟩ := h.poolAddress
  obtain ⟨t', ht', -⟩ := h'.poolAddress
  have hblock : ∀ b : Option Text, (b.elim Doc.null Doc.string).value =
      b.elim Value.null Value.string := fun b => by cases b <;> rfl
  rw [canonicalJson_eq_print h, canonicalJson_eq_print h'] at heq
  have hvalue := value_eq_of_print_eq (exact_canonicalDocs h) (exact_canonicalDocs h') heq
  rw [Doc.value, Doc.value, valueMembers_eq_map, valueMembers_eq_map] at hvalue
  have hmembers := Value.object.inj hvalue
  simp only [canonicalDocs, List.map_cons, List.map_nil, Doc.value, List.cons.injEq, Prod.mk.injEq,
    true_and, and_true, Value.string.injEq, Value.number.injEq, Number.finite.injEq, Nat.cast_inj,
    poolAddressDoc_value ht, poolAddressDoc_value ht', hblock] at hmembers
  obtain ⟨hamount, hasset, hblinding, hnumber, hchain, hcommitment, hcreated, hleaf, hsecret, howner,
    hpool, hruntime, htx⟩ := hmembers
  rw [hamount, hasset, hblinding, elim_null_string_injective hnumber, hchain, hcommitment, hcreated,
    hleaf, hsecret, howner, hpool, hruntime, htx]

/-! ### The values that are accepted -/

section Agreement
variable (keccak256 : Bytes → Bytes32)

/-- A value whose chain id is that of one of the two networks. -/
def OnMegaEth (value : Value) : Prop :=
  ∃ members n, value = .object members ∧ naturalMember members "chainId" = some n ∧
    isSupportedMegaEthChainId n

/-- **The readers treat a value alike**: both accept it or neither does, and they sum the same
text. -/
structure Agree (value : Value) : Prop where
  accepted : (∃ kit, validateRecoveryKitV1 keccak256 value = .ok kit) ↔
    ∃ kit, Web.RecoveryKits.validateRecoveryKitV1 keccak256 value = .ok kit
  preimage : ∀ kit kit', validateRecoveryKitV1 keccak256 value = .ok kit →
    Web.RecoveryKits.validateRecoveryKitV1 keccak256 value = .ok kit' →
    canonicalJson kit = Web.RecoveryKits.canonicalJson kit'

/-- **A kit with its address in an array**, and nothing else wrong with it. -/
def WrapsAddress (value : Value) : Prop :=
  ∃ members kit item, value = .object members ∧ Reads members kit ∧ KitFits kit ∧
    Summed keccak256 kit ∧ kit.poolAddress = .array [item]

/-- A kit that one of the readers returned. -/
def IsAccepted (kit : RecoveryKitV1) : Prop :=
  ∃ value, validateRecoveryKitV1 keccak256 value = .ok kit ∨
    Web.RecoveryKits.validateRecoveryKitV1 keccak256 value = .ok kit

variable {keccak256}

/-- What the app accepts, the SDK accepts as the same kit. -/
theorem accepted_of_web {value : Value} {kit : RecoveryKitV1}
    (h : Web.RecoveryKits.validateRecoveryKitV1 keccak256 value = .ok kit) :
    validateRecoveryKitV1 keccak256 value = .ok kit := by
  obtain ⟨members, rfl, hreads, hfits, hsum, -⟩ :=
    Web.RecoveryKits.validateRecoveryKitV1_eq_ok.mp h
  exact validateRecoveryKitV1_eq_ok.mpr ⟨members, rfl, hreads, hfits, hsum⟩

theorem IsAccepted.fits {kit : RecoveryKitV1} (h : IsAccepted keccak256 kit) :
    KitFits kit ∧ Summed keccak256 kit := by
  obtain ⟨value, hvalue⟩ := h
  have hsdk : validateRecoveryKitV1 keccak256 value = .ok kit := hvalue.elim id accepted_of_web
  obtain ⟨-, -, -, hfits, hsum⟩ := validateRecoveryKitV1_eq_ok.mp hsdk
  exact ⟨hfits, hsum⟩

/-- An address is a text, or a value in an array. -/
theorem string_or_array {v : Value} {t : Text} (h : poolAddressText v = some t) :
    (∃ s, v = .string s) ∨ ∃ item, v = .array [item] := by
  unfold poolAddressText at h
  split at h
  · exact Or.inl ⟨_, rfl⟩
  · exact Or.inr ⟨_, rfl⟩
  · cases h

/-- The chain id of an accepted kit is that of the value. -/
theorem supported_of_reads {members : List (Text × Value)} {kit : RecoveryKitV1}
    (hmega : OnMegaEth (.object members)) (hreads : Reads members kit) (hfits : KitFits kit) :
    isSupportedMegaEthChainId kit.chainId := by
  obtain ⟨_, n, heq, hn, hsupported⟩ := hmega
  obtain rfl := Value.object.inj heq
  have hchain := hreads.lookup ("chainId".toList, .number (.finite kit.chainId)) (by simp [kitMembers])
  have hsome := naturalMember_eq_some.mpr ⟨hchain, hfits.chainId.2⟩
  rw [← Option.some.inj (hn.symm.trans hsome)]
  exact hsupported

/-- **A value on MegaETH** is treated alike unless it wraps its address. -/
theorem agree_iff {value : Value} (hmega : OnMegaEth value) :
    Agree keccak256 value ↔ ¬WrapsAddress keccak256 value := by
  constructor
  · rintro hagree ⟨members, kit, item, rfl, hreads, hfits, hsum, harray⟩
    obtain ⟨kit', hweb⟩ := hagree.accepted.mp
      ⟨kit, validateRecoveryKitV1_eq_ok.mpr ⟨members, rfl, hreads, hfits, hsum⟩⟩
    obtain ⟨_, heq, hreads', -, -, -, t, hstring⟩ :=
      Web.RecoveryKits.validateRecoveryKitV1_eq_ok.mp hweb
    obtain rfl := Value.object.inj heq
    rw [reads_unique hreads' hreads, harray] at hstring
    cases hstring
  · intro hwraps
    have hforth : ∀ kit, validateRecoveryKitV1 keccak256 value = .ok kit →
        Web.RecoveryKits.validateRecoveryKitV1 keccak256 value = .ok kit := by
      intro kit hsdk
      obtain ⟨members, rfl, hreads, hfits, hsum⟩ := validateRecoveryKitV1_eq_ok.mp hsdk
      obtain ⟨t, ht, -⟩ := hfits.poolAddress
      rcases string_or_array ht with hstring | ⟨item, harray⟩
      · exact Web.RecoveryKits.validateRecoveryKitV1_eq_ok.mpr ⟨members, rfl, hreads, hfits, hsum,
          supported_of_reads hmega hreads hfits, hstring⟩
      · exact absurd ⟨members, kit, item, rfl, hreads, hfits, hsum, harray⟩ hwraps
    refine ⟨⟨fun ⟨kit, hkit⟩ => ⟨kit, hforth kit hkit⟩, fun ⟨kit, hkit⟩ =>
      ⟨kit, accepted_of_web hkit⟩⟩, fun kit kit' hkit hkit' => ?_⟩
    obtain rfl := Except.ok.inj (hkit.symm.trans (accepted_of_web hkit'))
    rfl

/-- **The two readers**: which values they treat alike, and that the summed text determines a kit
up to the case of its checksum. -/
theorem validators_agree_iff (keccak256 : Bytes → Bytes32) :
    (∀ value, OnMegaEth value → (Agree keccak256 value ↔ ¬WrapsAddress keccak256 value)) ∧
    ∀ kit kit', IsAccepted keccak256 kit → IsAccepted keccak256 kit' →
      canonicalJson kit = canonicalJson kit' →
      { kit with checksum := [] } = { kit' with checksum := [] } ∧
        lower kit.checksum = lower kit'.checksum := by
  refine ⟨fun value hmega => agree_iff hmega, fun kit kit' h h' heq => ?_⟩
  obtain ⟨hfits, hsum⟩ := h.fits
  obtain ⟨hfits', hsum'⟩ := h'.fits
  refine ⟨canonicalJson_injective hfits hfits' heq, ?_⟩
  rw [hsum.2, hsum'.2, checksumRecoveryKit, checksumRecoveryKit, heq]

end Agreement

/-! ### A kit with its address in an array -/

/-- The kit of a note, with its address in an array or not, and no checksum yet. -/
def unsummedKit (poolAddress : Value) : RecoveryKitV1 :=
  { kitOf Keccak.keccak256 (sampleInput ['0']) 0 with poolAddress }

def sampleKit (poolAddress : Value) : RecoveryKitV1 :=
  { unsummedKit poolAddress with
    checksum := checksumRecoveryKit Keccak.keccak256 (unsummedKit poolAddress) }

/-- The checksum is no part of what is summed. -/
theorem canonicalJson_checksum (kit : RecoveryKitV1) (checksum : Text) :
    canonicalJson { kit with checksum } = canonicalJson kit := rfl

theorem kitFits_checksum {kit : RecoveryKitV1} (h : KitFits kit) (checksum : Text) :
    KitFits { kit with checksum } := { h with }

theorem checksum_sampleKit (poolAddress : Value) (checksum : Text) :
    checksumRecoveryKit Keccak.keccak256 { sampleKit poolAddress with checksum } =
      (sampleKit poolAddress).checksum := by
  rw [checksumRecoveryKit, canonicalJson_checksum, sampleKit, canonicalJson_checksum,
    checksumRecoveryKit]

theorem sampleKit_accepted {poolAddress : Value}
    (h : poolAddressText poolAddress = some (addressText 5)) :
    KitFits (sampleKit poolAddress) ∧ Summed Keccak.keccak256 (sampleKit poolAddress) := by
  have hleft : Restorable (sampleInput ['0']) :=
    ⟨(by decide : 0 < 6343 ∧ 6343 < 2 ^ 53), isEvmAddress_addressText 5, List.cons_ne_nil _ _,
      List.cons_ne_nil _ _⟩
  have hfits : KitFits (kitOf Keccak.keccak256 (sampleInput ['0']) 0) :=
    (kitFits_kitOf (noteFits_sampleInput _) (by decide)).mpr hleft
  refine ⟨{ hfits with poolAddress := ⟨_, h, isEvmAddress_addressText 5⟩ }, isHexBytes32_hex32 _, ?_⟩
  exact congrArg lower (checksum_sampleKit poolAddress (sampleKit poolAddress).checksum).symm

theorem onMegaEth_sampleKit (poolAddress : Value) :
    OnMegaEth (.object (kitMembers (sampleKit poolAddress))) :=
  ⟨_, 6343, rfl, naturalMember_eq_some.mpr
    ⟨(reads_kitMembers _).lookup ("chainId".toList, .number (.finite (6343 : ℕ)))
      (by simp [kitMembers]; rfl), by decide⟩, Or.inl rfl⟩

/-- The digits of a text in capitals. -/
def capitals (t : Text) : Text := '0' :: 'x' :: (t.drop 2).map Char.toUpper

theorem capitals_hex {t : Text} (h : isHexBytes32 t) :
    isHexBytes32 (capitals t) ∧ lower (capitals t) = lower t := by
  obtain ⟨digits, rfl, hlength, hdigits⟩ := isHexOfLength_iff.mp h
  have hupper : ∀ c ∈ lowerDigits ++ upperDigits,
      c.toUpper ∈ lowerDigits ++ upperDigits ∧ c.toUpper.toLower = c.toLower := by decide
  constructor
  · refine isHexOfLength_iff.mpr ⟨digits.map Char.toUpper, rfl, ?_, ?_⟩
    · rw [List.length_map, hlength]
    · exact List.forall_mem_map.mpr fun c hc => (hupper c (hdigits c hc)).1
  · have hlower : lower (digits.map Char.toUpper) = lower digits := by
      unfold lower
      rw [List.map_map]
      exact List.map_congr_left fun c hc => (hupper c (hdigits c hc)).2
    change lower ('0' :: 'x' :: digits.map Char.toUpper) = _
    rw [lower_cons_hex, lower_cons_hex, hlower]

/-- A kit whose address is a text is treated alike, also when its checksum is in capitals. -/
theorem validators_agree_sample :
    Agree Keccak.keccak256 (.object (kitMembers (sampleKit (.string (addressText 5))))) ∧
    IsAccepted Keccak.keccak256 { sampleKit (.string (addressText 5)) with
      checksum := capitals (sampleKit (.string (addressText 5))).checksum } ∧
    lower (sampleKit (.string (addressText 5))).checksum =
      lower (capitals (sampleKit (.string (addressText 5))).checksum) := by
  obtain ⟨hfits, hsum⟩ := @sampleKit_accepted (.string (addressText 5)) rfl
  have hnot : ¬WrapsAddress Keccak.keccak256
      (.object (kitMembers (sampleKit (.string (addressText 5))))) := by
    rintro ⟨members, kit, item, heq, hreads, -, -, harray⟩
    obtain rfl := Value.object.inj heq
    rw [reads_unique hreads (reads_kitMembers _)] at harray
    cases harray
  obtain ⟨hcapitals, hlower⟩ := capitals_hex hsum.1
  have haccepted : IsAccepted Keccak.keccak256 (sampleKit (.string (addressText 5))) :=
    ⟨_, Or.inl (validateRecoveryKitV1_members hfits hsum)⟩
  have haccepted' : IsAccepted Keccak.keccak256 { sampleKit (.string (addressText 5)) with
      checksum := capitals (sampleKit (.string (addressText 5))).checksum } :=
    ⟨_, Or.inl (validateRecoveryKitV1_members (kitFits_checksum hfits _)
      ⟨hcapitals, by rw [checksum_sampleKit]; exact hlower⟩)⟩
  obtain ⟨hagree, hsummed⟩ := validators_agree_iff Keccak.keccak256
  exact ⟨(hagree _ (onMegaEth_sampleKit _)).mpr hnot, haccepted',
    (hsummed _ _ haccepted haccepted' (canonicalJson_checksum _ _).symm).2⟩

/-- A kit with its address in an array. -/
def wrappedValue : Value := .object (kitMembers (sampleKit (.array [.string (addressText 5)])))

/-- An address in an array is accepted by the SDK alone. -/
theorem wrapped_address_accepted : OnMegaEth wrappedValue ∧
    (∃ kit, validateRecoveryKitV1 Keccak.keccak256 wrappedValue = .ok kit) ∧
    ∀ kit, Web.RecoveryKits.validateRecoveryKitV1 Keccak.keccak256 wrappedValue ≠ .ok kit := by
  obtain ⟨hfits, hsum⟩ := @sampleKit_accepted (.array [.string (addressText 5)]) rfl
  refine ⟨onMegaEth_sampleKit _, ⟨_, validateRecoveryKitV1_members hfits hsum⟩, fun kit hweb => ?_⟩
  obtain ⟨_, heq, hreads, -, -, -, t, hstring⟩ :=
    Web.RecoveryKits.validateRecoveryKitV1_eq_ok.mp hweb
  obtain rfl := Value.object.inj heq
  rw [reads_unique hreads (reads_kitMembers _)] at hstring
  cases hstring

end Nullark.KitAgreement
