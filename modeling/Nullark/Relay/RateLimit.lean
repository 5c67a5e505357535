import Mathlib.Logic.Relation
import Nullark.Lib.ExpiringStore
import Nullark.Lib.Quota
import Nullark.Core.Proofs
import Nullark.Js.Bytes
import Nullark.Js.Clock
import Nullark.Js.Numbers

/-! # The rate limits of the relayer

A request is counted under four keys: of the client, the destination, the nullifier, and the pool.
The keys name the time bucket, and the counts are texts in a store that may keep them for longer than
it is asked to. A count is one of a `Counter`, an abstract key (`Counter.key_injective`).

* `checkAndRecord_below`, `checkAndRecord_above`: when a request is allowed, and what is written.
* `counted_run`: in every run the store holds the numbers of allowed requests.
* `serial_rate_limit`: no counter passes its limit. -/

namespace Nullark.Relay.RateLimit

open Nullark.Lib Nullark.Lib.Outcome Nullark.Lib.ExpiringStore
open Nullark.Lib.Hex (Text lower)
open Nullark.Core.Proofs (maxSafeInteger)
open Nullark.Js.Basic Nullark.Js.Bytes Nullark.Js.Numbers Nullark.Js.Clock

/-! ### The code -/

/-- Numbers, which need not be positive. -/
structure RelayRateLimitConfig where
  windowSeconds : ℤ
  perIp : ℤ
  perDestination : ℤ
  perNullifier : ℤ
  global : ℤ

/-- **A request**, whose addresses and nullifier the relayer has read from its runtime and from the
calldata. -/
structure RelayRateLimitInput where
  chainId : ℕ
  pool : Text
  ip : Text
  destination : Text
  nullifier : Text
  nowEpochSeconds : ℕ
  isEvmAddress_pool : isEvmAddress pool
  isEvmAddress_destination : isEvmAddress destination
  isHexBytes32_nullifier : isHexBytes32 nullifier

structure RelayRateLimitDecision where
  allowed : Bool
  exceeded : List String
  deriving DecidableEq

def validateNumber (key : String) (value : ℤ) : Throws Unit :=
  ensure ((-maxSafeInteger ≤ value ∧ value ≤ maxSafeInteger) ∧ 0 < value)
    ("relay rate limit " ++ key ++ " must be positive")

def validateRelayRateLimitConfig (config : RelayRateLimitConfig) : Throws Unit := do
  validateNumber "windowSeconds" config.windowSeconds
  validateNumber "perIp" config.perIp
  validateNumber "perDestination" config.perDestination
  validateNumber "perNullifier" config.perNullifier
  validateNumber "global" config.global

/-- `[a-z0-9:._-]`. -/
def isKeyChar (c : Char) : Bool := c.isLower || c.isDigit || c ∈ [':', '.', '_', '-']

/-- A character in lower case with `_` for each code unit that is not allowed. The Kelvin sign and the
`I` with a dot are the two characters beyond ASCII whose lower case is not. -/
def keyUnits (c : Char) : Text :=
  if c.toNat = 0x212A then ['k']
  else if c.toNat = 0x130 then ['i', '_']
  else if isKeyChar c.toLower then [c.toLower]
  else if c.toNat < 0x10000 then ['_'] else ['_', '_']

def normalizeKeyPart (value : Text) : Text :=
  let key := ((trim value).flatMap keyUnits).take 128
  if key = [] then "unknown".toList else key

/-- `Number.parseInt(text, 10)`, up to rounding beyond the safe integers. -/
def parseInt10 (t : Text) : Option ℤ :=
  let signed (sign : ℤ) (t : Text) : Option ℤ :=
    let digits := t.takeWhile Char.isDigit
    if digits = [] then none else some (sign * Decimal.value digits)
  match t.dropWhile isWhiteSpace with
  | '-' :: rest => signed (-1) rest
  | '+' :: rest => signed 1 rest
  | rest => signed 1 rest

/-- The count under a key; an empty text is no count. -/
def readCount (get : Text → Option Text) (key : Text) : ℕ :=
  match (get key).filter (· ≠ []) with
  | none => 0
  | some raw =>
    match parseInt10 raw with
    | some parsed => if parsed ≤ maxSafeInteger ∧ 0 < parsed then parsed.toNat else 0
    | none => 0

structure RateCheck where
  label : String
  key : Text
  limit : ℤ

/-- The time bucket; the division is exact, as its operands are safe. -/
def bucketOf (config : RelayRateLimitConfig) (nowEpochSeconds : ℕ) : ℕ :=
  nowEpochSeconds / config.windowSeconds.toNat

def ratePart : Text := "relay-rate:".toList

def ipPart : Text := "ip:".toList

def destinationPart : Text := "destination:".toList

def nullifierPart : Text := "nullifier:".toList

def globalPart : Text := "global".toList

def keyPrefix (chainId : ℕ) (pool : Text) (bucket : ℕ) : Text :=
  ratePart ++ Decimal.ofNat chainId ++ ':' :: lower pool ++ ':' :: Decimal.ofNat bucket

def checks (config : RelayRateLimitConfig) (input : RelayRateLimitInput) : List RateCheck :=
  let start := keyPrefix input.chainId input.pool (bucketOf config input.nowEpochSeconds)
  [⟨"perIp", start ++ ':' :: ipPart ++ normalizeKeyPart input.ip, config.perIp⟩,
    ⟨"perDestination", start ++ ':' :: destinationPart ++ lower input.destination,
      config.perDestination⟩,
    ⟨"perNullifier", start ++ ':' :: nullifierPart ++ lower input.nullifier, config.perNullifier⟩,
    ⟨"global", start ++ ':' :: globalPart, config.global⟩]

/-- What is written: values under keys, for some seconds. -/
structure Writes where
  values : List (Text × Text)
  expirationTtl : ℕ

/-- **`checkAndRecordRelayRateLimit`**, with what the store finds. -/
def checkAndRecordRelayRateLimit (config : RelayRateLimitConfig) (get : Text → Option Text)
    (input : RelayRateLimitInput) : Throws (RelayRateLimitDecision × Writes) := do
  validateRelayRateLimitConfig config
  let exceeded := ((checks config input).filter fun check =>
    check.limit < ((readCount get check.key + 1 : ℕ) : ℤ)).map (·.label)
  if exceeded ≠ [] then
    return (⟨false, exceeded⟩, ⟨[], 0⟩)
  else
    return (⟨true, []⟩,
      ⟨(checks config input).map fun check =>
        (check.key, Decimal.ofNat (readCount get check.key + 1)),
        (config.windowSeconds * 2).toNat⟩)

/-! ### Counters -/

/-- What a counter counts the requests of. -/
inductive Subject
  | ip (key : Text)
  | destination (text : Text)
  | nullifier (text : Text)
  | global
  deriving DecidableEq

/-- **A counter** of a pool in a time bucket. -/
structure Counter where
  chainId : ℕ
  pool : Text
  bucket : ℕ
  subject : Subject
  deriving DecidableEq

def Subject.text : Subject → Text
  | .ip key => ipPart ++ key
  | .destination text => destinationPart ++ text
  | .nullifier text => nullifierPart ++ text
  | .global => globalPart

def Counter.key (c : Counter) : Text :=
  ratePart ++ Decimal.ofNat c.chainId ++ ':' :: c.pool ++ ':' ::
    Decimal.ofNat c.bucket ++ ':' :: c.subject.text

/-- The limit of a counter. -/
def Counter.limit (config : RelayRateLimitConfig) (c : Counter) : ℕ :=
  match c.subject with
  | .ip _ => config.perIp.toNat
  | .destination _ => config.perDestination.toNat
  | .nullifier _ => config.perNullifier.toNat
  | .global => config.global.toNat

/-- **The counters of a request.** -/
def counters (config : RelayRateLimitConfig) (input : RelayRateLimitInput) : List Counter :=
  [.ip (normalizeKeyPart input.ip), .destination (lower input.destination),
    .nullifier (lower input.nullifier), .global].map fun subject =>
    ⟨input.chainId, lower input.pool, bucketOf config input.nowEpochSeconds, subject⟩

/-- A request is counted by its counters. -/
def touches (config : RelayRateLimitConfig) (input : RelayRateLimitInput) (c : Counter) : Bool :=
  c ∈ counters config input

/-- A counter whose pool has no colon. -/
def Counter.Plain (c : Counter) : Prop := ':' ∉ c.pool

/-- The text before the first colon. -/
theorem eq_of_colon {a b r s : Text} (ha : ':' ∉ a) (hb : ':' ∉ b)
    (h : a ++ ':' :: r = b ++ ':' :: s) : a = b ∧ r = s := by
  have htake : ∀ {t u : Text}, ':' ∉ t → (t ++ ':' :: u).takeWhile (· ≠ ':') = t := by
    intro t u ht
    have hall : ∀ c ∈ t, decide (c ≠ ':') = true := fun c hc =>
      decide_eq_true fun heq => ht (heq ▸ hc)
    rw [List.takeWhile_append_of_pos hall]
    simp
  have hab : a = b := by
    rw [← htake ha, h, htake hb]
  subst hab
  exact ⟨rfl, (List.cons.inj (List.append_cancel_left h)).2⟩

theorem colon_not_mem_ofNat (n : ℕ) : ':' ∉ Decimal.ofNat n := by
  intro h
  have hdigit : ':'.isDigit = true := Decimal.digits_ofNat n ':' h
  exact absurd hdigit (by decide)

/-- The first letter of the text. -/
def Subject.letter : Subject → Char
  | .ip _ => 'i'
  | .destination _ => 'd'
  | .nullifier _ => 'n'
  | .global => 'g'

theorem Subject.head_text (a : Subject) : a.text.head? = some a.letter := by
  cases a <;> rfl

theorem Subject.text_injective : Function.Injective Subject.text := by
  intro a b h
  have hletter : a.letter = b.letter := by
    have hhead := congrArg List.head? h
    rw [a.head_text, b.head_text] at hhead
    exact Option.some.inj hhead
  cases a <;> cases b <;> simp only [Subject.letter, Char.reduceEq] at hletter <;> first
    | exact congrArg _ (List.append_cancel_left h)
    | rfl

/-- **A key names its counter.** -/
theorem Counter.key_injective {c d : Counter} (hc : c.Plain) (hd : d.Plain) (h : c.key = d.key) :
    c = d := by
  unfold Counter.key at h
  simp only [List.append_assoc, List.cons_append] at h
  obtain ⟨hchain, h⟩ := eq_of_colon (colon_not_mem_ofNat _) (colon_not_mem_ofNat _)
    (List.append_cancel_left h)
  obtain ⟨hpool, h⟩ := eq_of_colon hc hd h
  obtain ⟨hbucket, h⟩ := eq_of_colon (colon_not_mem_ofNat _) (colon_not_mem_ofNat _) h
  have hsubject := Subject.text_injective h
  cases c
  cases d
  simp only [Counter.mk.injEq]
  exact ⟨Decimal.ofNat_injective hchain, hpool, Decimal.ofNat_injective hbucket, hsubject⟩

/-! ### What a request does -/

/-- **The configurations that are accepted.** -/
structure Valid (config : RelayRateLimitConfig) : Prop where
  windowSeconds : 0 < config.windowSeconds
  perIp : 0 < config.perIp ∧ config.perIp ≤ maxSafeInteger
  perDestination : 0 < config.perDestination ∧ config.perDestination ≤ maxSafeInteger
  perNullifier : 0 < config.perNullifier ∧ config.perNullifier ≤ maxSafeInteger
  global : 0 < config.global ∧ config.global ≤ maxSafeInteger
  windowSeconds_le : config.windowSeconds ≤ maxSafeInteger

theorem validateRelayRateLimitConfig_eq_ok {config : RelayRateLimitConfig} {u : Unit} :
    validateRelayRateLimitConfig config = .ok u ↔ Valid config := by
  simp only [validateRelayRateLimitConfig, validateNumber, bind_eq_ok, ensure_eq_ok, exists_const]
  constructor
  · rintro ⟨h1, h2, h3, h4, h5⟩
    exact ⟨h1.2, ⟨h2.2, h2.1.2⟩, ⟨h3.2, h3.1.2⟩, ⟨h4.2, h4.1.2⟩, ⟨h5.2, h5.1.2⟩, h1.1.2⟩
  · rintro ⟨h1, h2, h3, h4, h5, h6⟩
    exact ⟨⟨⟨by omega, h6⟩, h1⟩, ⟨⟨by omega, h2.2⟩, h2.1⟩, ⟨⟨by omega, h3.2⟩, h3.1⟩,
      ⟨⟨by omega, h4.2⟩, h4.1⟩, ⟨by omega, h5.2⟩, h5.1⟩

theorem Valid.limit_le {config : RelayRateLimitConfig} (h : Valid config) (c : Counter) :
    c.limit config ≤ maxSafeInteger := by
  obtain ⟨-, h2, h3, h4, h5, -⟩ := h
  unfold Counter.limit
  split <;> omega

section Request
variable {config : RelayRateLimitConfig} {get : Text → Option Text} {input : RelayRateLimitInput}

theorem key_eq (chainId : ℕ) (pool : Text) (bucket : ℕ) (subject : Subject) :
    (Counter.mk chainId (lower pool) bucket subject).key =
      keyPrefix chainId pool bucket ++ (':' :: subject.text) := by
  simp only [Counter.key, keyPrefix, List.append_assoc, List.cons_append]

/-- The checks are one for each counter. -/
theorem checks_eq (h : Valid config) :
    (checks config input).map (fun check => (check.key, check.limit)) =
      (counters config input).map fun c => (c.key, (c.limit config : ℤ)) := by
  obtain ⟨-, h2, h3, h4, h5, -⟩ := h
  have hcast : ∀ {n : ℤ}, 0 < n → ((n.toNat : ℕ) : ℤ) = n := fun hn => Int.toNat_of_nonneg hn.le
  simp only [checks, counters, List.map_cons, List.map_nil, Counter.limit, key_eq, Subject.text,
    hcast h2.1, hcast h3.1, hcast h4.1, hcast h5.1, List.append_assoc, List.cons_append]

/-- The counts that the request finds are below the limits. -/
def Below (config : RelayRateLimitConfig) (get : Text → Option Text)
    (input : RelayRateLimitInput) : Prop :=
  ∀ c ∈ counters config input, readCount get c.key < c.limit config

theorem exceeded_eq_nil (hconfig : Valid config) :
    ((checks config input).filter fun check =>
      check.limit < ((readCount get check.key + 1 : ℕ) : ℤ)).map (·.label) = [] ↔
      Below config get input := by
  have hmap : (∀ check ∈ checks config input, ((readCount get check.key + 1 : ℕ) : ℤ) ≤ check.limit) ↔
      ∀ p ∈ (checks config input).map fun check => (check.key, check.limit),
        ((readCount get p.1 + 1 : ℕ) : ℤ) ≤ p.2 := by
    rw [List.forall_mem_map]
  rw [List.map_eq_nil_iff, List.filter_eq_nil_iff]
  simp only [decide_eq_true_eq, not_lt]
  rw [hmap, checks_eq hconfig, List.forall_mem_map]
  refine forall₂_congr fun c _ => ?_
  exact Int.ofNat_le

/-- What is written for a request that is allowed. -/
def increments (config : RelayRateLimitConfig) (get : Text → Option Text)
    (input : RelayRateLimitInput) : List (Text × Text) :=
  (counters config input).map fun c => (c.key, Decimal.ofNat (readCount get c.key + 1))

theorem writes_eq (hconfig : Valid config) :
    ((checks config input).map fun check =>
      (check.key, Decimal.ofNat (readCount get check.key + 1))) = increments config get input := by
  have hmap := congrArg (List.map fun p => (p.1, Decimal.ofNat (readCount get p.1 + 1)))
    (@checks_eq config input hconfig)
  rw [List.map_map, List.map_map] at hmap
  exact hmap

/-- **What is written for a request below the limits.** -/
theorem checkAndRecord_below (hconfig : Valid config) (h : Below config get input) :
    checkAndRecordRelayRateLimit config get input =
      .ok (⟨true, []⟩, ⟨increments config get input, (config.windowSeconds * 2).toNat⟩) := by
  have hvalid : validateRelayRateLimitConfig config = .ok () :=
    validateRelayRateLimitConfig_eq_ok.mpr hconfig
  unfold checkAndRecordRelayRateLimit
  rw [hvalid, ok_bind]
  dsimp only
  rw [if_neg (not_not.mpr ((exceeded_eq_nil hconfig).mpr h)), writes_eq hconfig]
  rfl

/-- **Nothing is written for another request.** -/
theorem checkAndRecord_above (hconfig : Valid config) (h : ¬Below config get input) :
    ∃ exceeded, exceeded ≠ [] ∧
      checkAndRecordRelayRateLimit config get input = .ok (⟨false, exceeded⟩, ⟨[], 0⟩) := by
  have hvalid : validateRelayRateLimitConfig config = .ok () :=
    validateRelayRateLimitConfig_eq_ok.mpr hconfig
  have hne := mt (exceeded_eq_nil hconfig).mp h
  refine ⟨_, hne, ?_⟩
  unfold checkAndRecordRelayRateLimit
  rw [hvalid, ok_bind]
  dsimp only
  rw [if_pos hne]
  rfl

end Request

/-! ### Runs -/

/-- The time, the store, and the requests that were handled, in order. -/
structure RateLimitState where
  now : DateNow
  store : Store Text Text
  handled : List (RelayRateLimitInput × RelayRateLimitDecision)

/-- **One step**: time passes, or a request is handled. The counts are read at once; what is written
may be written later. -/
inductive RateLimitStep (config : RelayRateLimitConfig) : RateLimitState → RateLimitState → Prop
  | tick {s : RateLimitState} (now : DateNow) (h : s.now.milliseconds ≤ now.milliseconds) :
      RateLimitStep config s { s with now }
  | handles {s : RateLimitState} {input : RelayRateLimitInput} {get : Text → Option Text}
      {decision : RelayRateLimitDecision} {writes : Writes} (later : DateNow)
      (hnow : input.nowEpochSeconds = s.now.epochSeconds)
      (hget : ∀ key, Finds s.store s.now.milliseconds key (get key))
      (h : checkAndRecordRelayRateLimit config get input = .ok (decision, writes))
      (hlater : s.now.milliseconds ≤ later.milliseconds) :
      RateLimitStep config s
        ⟨later, putAll s.store later.milliseconds (writes.expirationTtl * 1000) writes.values,
          s.handled ++ [(input, decision)]⟩

abbrev RateLimitRun (config : RelayRateLimitConfig) : RateLimitState → RateLimitState → Prop :=
  Relation.ReflTransGen (RateLimitStep config)

/-- No request was counted yet. -/
structure Fresh (s : RateLimitState) : Prop where
  store : ∀ c : Counter, s.store c.key = none
  handled : s.handled = []

/-- The requests that were allowed. -/
def allowedOf (handled : List (RelayRateLimitInput × RelayRateLimitDecision)) :
    List RelayRateLimitInput :=
  (handled.filter (·.2.allowed)).map (·.1)

/-- **The number of allowed requests** that a counter counts. -/
def allowedCount (config : RelayRateLimitConfig) (s : RateLimitState) (c : Counter) : ℕ :=
  Quota.used (touches config) (allowedOf s.handled) c

/-- **The store holds the numbers of allowed requests**, at least until a window after the bucket. -/
structure Counted (config : RelayRateLimitConfig) (s : RateLimitState) : Prop where
  admitted : Quota.Admitted (touches config) (Counter.limit config) (allowedOf s.handled)
  absent : ∀ c : Counter, c.Plain → allowedCount config s c = 0 → s.store c.key = none
  present : ∀ c : Counter, c.Plain → 0 < allowedCount config s c →
    ∃ e, s.store c.key = some e ∧ e.value = Decimal.ofNat (allowedCount config s c) ∧
      (c.bucket + 2) * (config.windowSeconds.toNat * 1000) ≤ e.expiresAt

/-! ### What is read -/

theorem parseInt10_ofNat (n : ℕ) : parseInt10 (Decimal.ofNat n) = some (n : ℤ) := by
  obtain ⟨c, digits, hdigits⟩ := List.exists_cons_of_ne_nil (Decimal.ofNat_ne_nil n)
  have hall := Decimal.digits_ofNat n
  have hc : c.isDigit = true := hall c (hdigits ▸ List.mem_cons_self)
  have hspace : isWhiteSpace c = false := isWhiteSpace_of_isDigit (decimal_isDigit hc).1
  have hdrop : (Decimal.ofNat n).dropWhile isWhiteSpace = Decimal.ofNat n := by
    rw [hdigits, List.dropWhile_cons, hspace]
    rfl
  have htake : (Decimal.ofNat n).takeWhile Char.isDigit = Decimal.ofNat n :=
    List.takeWhile_eq_self_iff.mpr hall
  unfold parseInt10
  rw [hdrop]
  dsimp only
  split
  · rename_i rest hrest
    rw [hdigits] at hrest
    obtain ⟨rfl, -⟩ := List.cons.inj hrest
    exact absurd hc (by decide)
  · rename_i rest hrest
    rw [hdigits] at hrest
    obtain ⟨rfl, -⟩ := List.cons.inj hrest
    exact absurd hc (by decide)
  · rw [htake, if_neg (Decimal.ofNat_ne_nil n), Decimal.value_ofNat, one_mul]

section Read
variable {config : RelayRateLimitConfig} {s : RateLimitState} {get : Text → Option Text}
  {input : RelayRateLimitInput} {c : Counter}

theorem readCount_of_none {key : Text} (h : get key = none) : readCount get key = 0 := by
  rw [readCount, h]
  rfl

theorem readCount_of_some {key : Text} {n : ℕ} (hpos : 0 < n) (hle : n ≤ maxSafeInteger)
    (h : get key = some (Decimal.ofNat n)) : readCount get key = n := by
  have hkeep : (some (Decimal.ofNat n)).filter (· ≠ []) = some (Decimal.ofNat n) :=
    Option.filter_some_pos (decide_eq_true (Decimal.ofNat_ne_nil n))
  have hsafe : (n : ℤ) ≤ maxSafeInteger ∧ 0 < (n : ℤ) := ⟨by omega, by omega⟩
  rw [readCount, h, hkeep]
  dsimp only
  rw [parseInt10_ofNat]
  dsimp only
  rw [if_pos hsafe, Int.toNat_natCast]

/-- The counters of a request have no colon in their pool, and their keys differ. -/
theorem plain_of_mem (h : c ∈ counters config input) : c.Plain := by
  have hcolon : ∀ x ∈ Hex.lowerDigits ++ Hex.upperDigits, x.toLower ≠ ':' := by decide
  have hpool : c.pool = lower input.pool := by
    obtain ⟨_, -, rfl⟩ := List.mem_map.mp h
    rfl
  intro hmem
  rw [hpool] at hmem
  obtain ⟨digits, htext, -, hd⟩ := isHexOfLength_iff.mp input.isEvmAddress_pool
  rw [htext, lower_cons_hex] at hmem
  rcases List.mem_cons.mp hmem with hzero | hmem
  · exact absurd hzero (by decide)
  · rcases List.mem_cons.mp hmem with hx | hmem
    · exact absurd hx (by decide)
    · obtain ⟨x, hx, hlower⟩ := List.mem_map.mp hmem
      exact hcolon x (hd x hx) hlower

theorem bucket_of_mem (h : c ∈ counters config input) :
    c.bucket = bucketOf config input.nowEpochSeconds := by
  obtain ⟨_, -, rfl⟩ := List.mem_map.mp h
  rfl

theorem nodup_keys : ((increments config get input).map (·.1)).Nodup := by
  have hcounters : (counters config input).Nodup := by
    refine List.Nodup.map (fun a b hab => (Counter.mk.inj hab).2.2.2) ?_
    simp
  have hkeys : (increments config get input).map (·.1) = (counters config input).map (·.key) := by
    rw [increments, List.map_map]
    rfl
  rw [hkeys]
  exact hcounters.map_on fun a ha b hb hab =>
    Counter.key_injective (plain_of_mem ha) (plain_of_mem hb) hab

/-- The time is in its bucket. -/
theorem bucket_bounds (hconfig : Valid config) (now : DateNow) :
    bucketOf config now.epochSeconds * (config.windowSeconds.toNat * 1000) ≤ now.milliseconds ∧
      now.milliseconds <
        (bucketOf config now.epochSeconds + 1) * (config.windowSeconds.toNat * 1000) := by
  have hpos : 0 < config.windowSeconds.toNat * 1000 := by
    have hwindow := hconfig.windowSeconds
    omega
  have hbucket : bucketOf config now.epochSeconds =
      now.milliseconds / (config.windowSeconds.toNat * 1000) := by
    rw [bucketOf, DateNow.epochSeconds, Nat.div_div_eq_div_mul, Nat.mul_comm]
  rw [hbucket]
  refine ⟨Nat.div_mul_le_self _ _, ?_⟩
  rw [Nat.mul_comm]
  exact Nat.lt_mul_div_succ _ hpos

/-- **The counts that are found** are the numbers of allowed requests. -/
theorem readCount_eq (hconfig : Valid config) (hs : Counted config s)
    (hget : ∀ key, Finds s.store s.now.milliseconds key (get key)) (hc : c.Plain)
    (hbucket : c.bucket = bucketOf config s.now.epochSeconds) :
    readCount get c.key = allowedCount config s c := by
  by_cases hzero : allowedCount config s c = 0
  · rw [hzero]
    exact readCount_of_none ((hget c.key).of_none (hs.absent c hc hzero))
  · have hpos : 0 < allowedCount config s c := Nat.pos_of_ne_zero hzero
    have hle : allowedCount config s c ≤ maxSafeInteger :=
      (Quota.used_le hs.admitted c).trans (hconfig.limit_le c)
    obtain ⟨e, he, hvalue, hexpires⟩ := hs.present c hc hpos
    have hlive : s.now.milliseconds < e.expiresAt := by
      have hnow := (bucket_bounds hconfig s.now).2
      rw [← hbucket] at hnow
      refine hnow.trans_le (le_trans ?_ hexpires)
      exact Nat.mul_le_mul_right _ (by omega)
    exact readCount_of_some hpos hle (hvalue ▸ (hget c.key).of_entry he hlive)

end Read

/-! ### What holds in every run -/

section Run
variable {config : RelayRateLimitConfig} {s s' : RateLimitState} {get : Text → Option Text}
  {input : RelayRateLimitInput}

theorem touches_iff {c : Counter} : touches config input c = true ↔ c ∈ counters config input :=
  decide_eq_true_iff

theorem allowedOf_concat (handled : List (RelayRateLimitInput × RelayRateLimitDecision))
    (decision : RelayRateLimitDecision) : allowedOf (handled ++ [(input, decision)]) =
      if decision.allowed then allowedOf handled ++ [input] else allowedOf handled := by
  cases hallowed : decision.allowed <;> simp [allowedOf, hallowed]

/-- **The counts are below the limits** exactly if the numbers of allowed requests are. -/
theorem below_iff (hconfig : Valid config) (hs : Counted config s)
    (hget : ∀ key, Finds s.store s.now.milliseconds key (get key))
    (hnow : input.nowEpochSeconds = s.now.epochSeconds) :
    Below config get input ↔
      ∀ c ∈ counters config input, allowedCount config s c < c.limit config := by
  refine forall₂_congr fun c hc => ?_
  have hbucket : c.bucket = bucketOf config s.now.epochSeconds := by
    rw [bucket_of_mem hc, hnow]
  rw [readCount_eq hconfig hs hget (plain_of_mem hc) hbucket]

/-- **An allowed request** is counted once by each of its counters. -/
theorem counted_allowed (hconfig : Valid config) (hs : Counted config s)
    (hget : ∀ key, Finds s.store s.now.milliseconds key (get key))
    (hnow : input.nowEpochSeconds = s.now.epochSeconds) (hbelow : Below config get input)
    {later : DateNow} (hlater : s.now.milliseconds ≤ later.milliseconds) :
    Counted config ⟨later, putAll s.store later.milliseconds
      ((config.windowSeconds * 2).toNat * 1000) (increments config get input),
      s.handled ++ [(input, ⟨true, []⟩)]⟩ := by
  have hlog : allowedOf (s.handled ++ [(input, ⟨true, []⟩)]) = allowedOf s.handled ++ [input] :=
    allowedOf_concat _ _
  have hcounts := (below_iff hconfig hs hget hnow).mp hbelow
  -- what the counters of the request hold now
  have hmine : ∀ c ∈ counters config input,
      allowedCount config ⟨later, putAll s.store later.milliseconds
        ((config.windowSeconds * 2).toNat * 1000) (increments config get input),
        s.handled ++ [(input, ⟨true, []⟩)]⟩ c = allowedCount config s c + 1 := by
    intro c hc
    unfold allowedCount
    rw [hlog]
    exact Quota.used_concat_of_touches (touches_iff.mpr hc)
  have hother : ∀ c ∉ counters config input,
      allowedCount config ⟨later, putAll s.store later.milliseconds
        ((config.windowSeconds * 2).toNat * 1000) (increments config get input),
        s.handled ++ [(input, ⟨true, []⟩)]⟩ c = allowedCount config s c := by
    intro c hc
    have htouches : touches config input c = false := decide_eq_false hc
    unfold allowedCount
    rw [hlog]
    exact Quota.used_concat_of_not_touches htouches
  have hkept : ∀ c : Counter, c.Plain → c ∉ counters config input →
      putAll s.store later.milliseconds ((config.windowSeconds * 2).toNat * 1000)
        (increments config get input) c.key = s.store c.key := by
    intro c hplain hc
    refine putAll_of_not_mem fun hmem => ?_
    obtain ⟨w, hw, hkey⟩ := List.mem_map.mp hmem
    obtain ⟨d, hd, rfl⟩ := List.mem_map.mp hw
    exact hc (Counter.key_injective (plain_of_mem hd) hplain hkey ▸ hd)
  refine ⟨?_, fun c hplain hzero => ?_, fun c hplain hpos => ?_⟩
  · change Quota.Admitted _ _ (allowedOf (s.handled ++ [(input, ⟨true, []⟩)]))
    rw [hlog]
    exact hs.admitted.concat fun c hc => hcounts c (touches_iff.mp hc)
  · have hc : c ∉ counters config input := by
      intro hc
      rw [hmine c hc] at hzero
      omega
    rw [hother c hc] at hzero
    exact (hkept c hplain hc).trans (hs.absent c hplain hzero)
  · by_cases hc : c ∈ counters config input
    · have hbucket : c.bucket = bucketOf config s.now.epochSeconds := by
        rw [bucket_of_mem hc, hnow]
      have hread := readCount_eq hconfig hs hget hplain hbucket
      have hmem : (c.key, Decimal.ofNat (readCount get c.key + 1)) ∈ increments config get input :=
        List.mem_map_of_mem hc
      refine ⟨_, putAll_of_mem nodup_keys hmem, ?_, ?_⟩
      · rw [hmine c hc, hread]
      · have hstart := (bucket_bounds hconfig s.now).1
        have htwice : (config.windowSeconds * 2).toNat * 1000 =
            2 * (config.windowSeconds.toNat * 1000) := by omega
        change (c.bucket + 2) * (config.windowSeconds.toNat * 1000) ≤
          later.milliseconds + (config.windowSeconds * 2).toNat * 1000
        rw [hbucket, Nat.add_mul, htwice]
        omega
    · rw [hother c hc] at hpos ⊢
      obtain ⟨e, he, hvalue, hexpires⟩ := hs.present c hplain hpos
      exact ⟨e, (hkept c hplain hc).trans he, hvalue, hexpires⟩

/-- A refused request changes no counter. -/
theorem counted_refused (hs : Counted config s) {exceeded : List String} {later : DateNow} :
    Counted config ⟨later, s.store, s.handled ++ [(input, ⟨false, exceeded⟩)]⟩ := by
  have hlog : allowedOf (s.handled ++ [(input, ⟨false, exceeded⟩)]) = allowedOf s.handled :=
    allowedOf_concat _ _
  have hcount : ∀ c, allowedCount config
      ⟨later, s.store, s.handled ++ [(input, ⟨false, exceeded⟩)]⟩ c = allowedCount config s c := by
    intro c
    unfold allowedCount
    rw [hlog]
  refine ⟨?_, fun c hplain hzero => ?_, fun c hplain hpos => ?_⟩
  · change Quota.Admitted _ _ (allowedOf (s.handled ++ [(input, ⟨false, exceeded⟩)]))
    rw [hlog]
    exact hs.admitted
  · rw [hcount] at hzero
    exact hs.absent c hplain hzero
  · rw [hcount] at hpos ⊢
    exact hs.present c hplain hpos

theorem counted_step (hconfig : Valid config) (hs : Counted config s)
    (h : RateLimitStep config s s') : Counted config s' := by
  cases h with
  | tick now _ => exact ⟨hs.admitted, hs.absent, hs.present⟩
  | @handles input get decision writes later hnow hget h hlater =>
    by_cases hbelow : Below config get input
    · rw [checkAndRecord_below hconfig hbelow] at h
      obtain ⟨rfl, rfl⟩ := Prod.mk.inj (Except.ok.inj h)
      exact counted_allowed hconfig hs hget hnow hbelow hlater
    · obtain ⟨exceeded, -, habove⟩ := checkAndRecord_above hconfig hbelow
      rw [habove] at h
      obtain ⟨rfl, rfl⟩ := Prod.mk.inj (Except.ok.inj h)
      exact counted_refused hs

theorem counted_fresh (h : Fresh s) : Counted config s := by
  have hnone : allowedOf s.handled = [] := by rw [h.handled]; rfl
  refine ⟨?_, fun c _ _ => h.store c, fun c _ hpos => ?_⟩
  · rw [hnone]
    exact .nil
  · rw [allowedCount, hnone] at hpos
    exact absurd hpos (Nat.lt_irrefl 0)

/-- **In every run the store holds the numbers of allowed requests.** -/
theorem counted_run (hconfig : Valid config) (hfresh : Fresh s) (hrun : RateLimitRun config s s') :
    Counted config s' := by
  induction hrun with
  | refl => exact counted_fresh hfresh
  | tail _ hstep ih => exact counted_step hconfig ih hstep

/-- **The rate limits of requests that are handled one at a time.** In every run no counter has more
allowed requests than its limit, a request is allowed exactly when all its counters are below their
limits, and for a request that is refused nothing is written. -/
theorem serial_rate_limit (hconfig : Valid config) (hfresh : Fresh s)
    (hrun : RateLimitRun config s s') :
    (∀ c : Counter, allowedCount config s' c ≤ c.limit config) ∧
    ∀ (input : RelayRateLimitInput) (get : Text → Option Text),
      input.nowEpochSeconds = s'.now.epochSeconds →
      (∀ key, Finds s'.store s'.now.milliseconds key (get key)) →
      ∃ decision writes,
        checkAndRecordRelayRateLimit config get input = .ok (decision, writes) ∧
        (decision.allowed = true ↔
          ∀ c ∈ counters config input, allowedCount config s' c < c.limit config) ∧
        (decision.allowed = false → writes.values = []) := by
  have hs := counted_run hconfig hfresh hrun
  refine ⟨fun c => Quota.used_le hs.admitted c, fun input get hnow hget => ?_⟩
  rw [← below_iff hconfig hs hget hnow]
  by_cases hbelow : Below config get input
  · exact ⟨_, _, checkAndRecord_below hconfig hbelow, iff_of_true rfl hbelow,
      fun h => Bool.noConfusion h⟩
  · obtain ⟨exceeded, -, habove⟩ := checkAndRecord_above hconfig hbelow
    exact ⟨_, _, habove, iff_of_false Bool.false_ne_true hbelow, fun _ => rfl⟩

end Run

def sampleConfig : RelayRateLimitConfig where
  windowSeconds := 60
  perIp := 2
  perDestination := 2
  perNullifier := 2
  global := 10

theorem valid_sampleConfig : Valid sampleConfig := validateRelayRateLimitConfig_eq_ok.mp rfl

def sampleInput : RelayRateLimitInput where
  chainId := 4326
  pool := addressText 7
  ip := "203.0.113.8".toList
  destination := addressText 1
  nullifier := hex32 5
  nowEpochSeconds := 1800000000
  isEvmAddress_pool := isEvmAddress_addressText 7
  isEvmAddress_destination := isEvmAddress_addressText 1
  isHexBytes32_nullifier := isHexBytes32_hex32 5

def sampleState : RateLimitState where
  now := ⟨1800000000000, by decide⟩
  store := empty
  handled := []

/-- The limits of its counters. -/
theorem limit_sampleInput {c : Counter} (hc : c ∈ counters sampleConfig sampleInput) :
    2 ≤ c.limit sampleConfig := by
  simp only [counters, List.map_cons, List.map_nil, List.mem_cons, List.not_mem_nil, or_false] at hc
  rcases hc with rfl | rfl | rfl | rfl <;> decide

/-- Two requests are allowed. The third one is refused, and nothing is written for it. -/
theorem serial_rate_limit_refused : ∃ s decision writes, RateLimitRun sampleConfig sampleState s ∧
    s.handled.map (fun h => h.2.allowed) = [true, true] ∧
    (∀ c : Counter, allowedCount sampleConfig s c ≤ c.limit sampleConfig) ∧
    checkAndRecordRelayRateLimit sampleConfig (get s.store s.now.milliseconds) sampleInput =
      .ok (decision, writes) ∧
    decision.allowed = false ∧ writes.values = [] := by
  have hfresh : Fresh sampleState := ⟨fun _ => rfl, rfl⟩
  have htime : sampleInput.nowEpochSeconds = sampleState.now.epochSeconds := rfl
  have hspec : ∀ {s}, RateLimitRun sampleConfig sampleState s → s.now = sampleState.now → _ :=
    fun {s} hrun hnow => (serial_rate_limit valid_sampleConfig hfresh hrun).2 sampleInput
      (get s.store s.now.milliseconds) (by rw [hnow]; exact htime) fun _ => .inl rfl
  have htouches : ∀ c ∈ counters sampleConfig sampleInput, touches sampleConfig sampleInput c = true :=
    fun _ hc => touches_iff.mpr hc
  -- the first request
  obtain ⟨first, firstWrites, hfirst, hiff, -⟩ := hspec .refl rfl
  have hallowed : first.allowed = true :=
    hiff.mpr fun c hc => Nat.lt_of_lt_of_le Nat.two_pos (limit_sampleInput hc)
  have hrun : RateLimitRun sampleConfig sampleState _ :=
    .single (.handles sampleState.now htime (fun _ => .inl rfl) hfirst le_rfl)
  -- the second request
  obtain ⟨second, secondWrites, hsecond, hiff, -⟩ := hspec hrun rfl
  have hlog : allowedOf (sampleState.handled ++ [(sampleInput, first)]) = [] ++ [sampleInput] := by
    rw [allowedOf_concat, if_pos hallowed]
    rfl
  have hallowed' : second.allowed = true := hiff.mpr fun c hc => by
    unfold allowedCount
    rw [hlog, Quota.used_concat_of_touches (htouches c hc)]
    exact limit_sampleInput hc
  have hrun' : RateLimitRun sampleConfig sampleState _ :=
    hrun.tail (.handles sampleState.now htime (fun _ => .inl rfl) hsecond le_rfl)
  -- the third request
  obtain ⟨third, thirdWrites, hthird, hiff, hnothing⟩ := hspec hrun' rfl
  have hlog' : allowedOf (sampleState.handled ++ [(sampleInput, first)] ++ [(sampleInput, second)]) =
      [] ++ [sampleInput] ++ [sampleInput] := by
    rw [allowedOf_concat, if_pos hallowed', hlog]
  have hrefused : third.allowed = false := by
    refine Bool.eq_false_iff.mpr fun h => ?_
    have hlt := hiff.mp h _ List.mem_cons_self
    unfold allowedCount at hlt
    rw [hlog', Quota.used_concat_of_touches (htouches _ List.mem_cons_self),
      Quota.used_concat_of_touches (htouches _ List.mem_cons_self)] at hlt
    exact absurd hlt (by decide)
  refine ⟨_, third, thirdWrites, hrun', ?_,
    (serial_rate_limit valid_sampleConfig hfresh hrun').1, hthird, hrefused, hnothing hrefused⟩
  change [first.allowed, second.allowed] = _
  rw [hallowed, hallowed']

end Nullark.Relay.RateLimit
