import Nullark.Relay.Worker

/-! # Handlers that run one at a time

Requests are handled in turn; each handler may fail wherever it waits, writes of handlers that have
failed may land during later ones, and time passes.

* `steady_run`: what holds between any two steps.
* `watched_run`: a record that lives is not written over by later requests.
* `serial_idempotency`: at most one transaction is sent in the life of a record, and later requests
  are answered from it, unless a late write lands on it.
* `late_write_hides_submission`: such a write. -/

namespace Nullark.Relay.Serial

open Nullark.Lib.Hex hiding value Digits ofNat
open Nullark.Lib.ExpiringStore
open Nullark.Js.Basic Nullark.Js.Clock Nullark.Relay.Idempotency Nullark.Relay.Worker

/-- The handler that runs or ran last, and how many there were. -/
structure SerialState where
  world : World
  current : Progress
  served : ℕ

/-- **One step**: time passes or a late write lands, the next request is taken, or the handler goes
on. -/
inductive SerialStep (keccak256 : Keccak) (normalizes : HttpRequest → NormalizedRelayRequest → Prop)
    (lands : World → LateWrite → Prop) : SerialState → SerialState → Prop
  | world {w w' p n} (h : WorldStep keccak256 lands w w') :
      SerialStep keccak256 normalizes lands ⟨w, p, n⟩ ⟨w', p, n⟩
  | starts {w p n} (http : HttpRequest) (hp : p.isAnswered) :
      SerialStep keccak256 normalizes lands ⟨w, p, n⟩ ⟨w, handleRelayRequest http, n + 1⟩
  | handles {w p w' p' n} (h : HandlerStep keccak256 normalizes (w, p) (w', p')) :
      SerialStep keccak256 normalizes lands ⟨w, p, n⟩ ⟨w', p', n⟩

abbrev SerialRun (keccak256 : Keccak) (normalizes : HttpRequest → NormalizedRelayRequest → Prop)
    (lands : World → LateWrite → Prop) : SerialState → SerialState → Prop :=
  Relation.ReflTransGen (SerialStep keccak256 normalizes lands)

/-- Before the first request. -/
def SerialState.fresh (now : DateNow) : SerialState :=
  ⟨World.fresh now, .answered none .noContent, 0⟩

/-- **A late write that does no harm**: where it is under the key of the calldata, and a submitted
record lives there, it has the hash of that record. -/
def Timely (keccak256 : Keccak) (w : World) (l : LateWrite) : Prop :=
  l.key = .calldata → ∀ txHash, asSubmitted (w.read (l.storeKey keccak256)) = some txHash →
    asSubmitted (some l.record) = some txHash

variable {keccak256 : Keccak} {normalizes : HttpRequest → NormalizedRelayRequest → Prop}
  {lands : World → LateWrite → Prop}

/-- The handler goes on by several steps. -/
theorem serialRun_of_handlerRun {w w' : World} {p p' : Progress} {n : ℕ}
    (h : HandlerRun keccak256 normalizes (w, p) (w', p')) :
    SerialRun keccak256 normalizes lands ⟨w, p, n⟩ ⟨w', p', n⟩ :=
  h.lift (fun x : World × Progress => SerialState.mk x.1 x.2 n) fun _ _ hs => .handles hs

/-! ### What is in the store -/

/-- **The store holds records**, none of which lives longer than a lifetime from now, and at most one
transaction has been sent in the life of each. What may still be written are records, too. -/
structure StoreOk (w : World) : Prop where
  valid : ∀ {key e}, w.store key = some e → ∃ r : RelayIdempotencyRecord,
    r.Valid ∧ e.value = r.serialize
  lifetime : ∀ {key e}, w.store key = some e → e.expiresAt ≤ w.expiry
  late : ∀ l ∈ w.late, l.record.Valid
  life : ∀ key, sentInLife key w.log ≤ 1

theorem storeOk_fresh (now : DateNow) : StoreOk (World.fresh now) :=
  ⟨(nomatch ·), (nomatch ·), fun _ hl => absurd hl List.not_mem_nil, fun _ => Nat.zero_le 1⟩

/-- There is no record under a key. -/
def Free (w : World) (key : Text) : Prop := get w.store w.now.milliseconds key = none

/-- No transaction has been sent in the life of a record that is written under the key now. -/
def Unsent (w : World) (key : Text) : Prop := Free w key ∨ sentInLife key w.log = 0

/-- **A record of which `P` holds** is under a key, and lives at least until a time. -/
def Lasts (w : World) (key : Text) (P : RelayIdempotencyRecord → Prop) (expiry : ℕ) : Prop :=
  ∃ e r, w.store key = some e ∧ expiry ≤ e.expiresAt ∧ RelayIdempotencyRecord.Valid r ∧
    e.value = r.serialize ∧ P r

section Store
variable {w : World} {key key' : Text} {P : RelayIdempotencyRecord → Prop}
  {r : RelayIdempotencyRecord} {expiry : ℕ}

theorem read_of_entry {e : Entry Text} (hr : r.Valid) (he : w.store key = some e)
    (hvalue : e.value = r.serialize) (hlive : w.now.milliseconds < e.expiresAt) :
    w.read key = some r := by
  unfold World.read
  rw [get_of_entry he hlive, hvalue, readRelayIdempotencyRecord_serialize hr]

theorem read_of_free (h : Free w key) : w.read key = none := by
  unfold World.read
  rw [h]
  rfl

/-- Keys without a record are free. -/
theorem StoreOk.free (h : StoreOk w) (hread : w.read key = none) : Free w key := by
  by_contra hne
  obtain ⟨raw, hraw⟩ := Option.ne_none_iff_exists'.mp hne
  obtain ⟨e, he, hlive, rfl⟩ := get_eq_some.mp hraw
  obtain ⟨r, hr, hvalue⟩ := h.valid he
  rw [read_of_entry hr he hvalue hlive] at hread
  cases hread

theorem StoreOk.read_valid (h : StoreOk w) (hread : w.read key = some r) : r.Valid := by
  unfold World.read at hread
  rcases hget : get w.store w.now.milliseconds key with _ | raw
  · rw [hget] at hread
    cases hread
  · obtain ⟨e, he, hlive, rfl⟩ := get_eq_some.mp hget
    obtain ⟨r', hr', hvalue⟩ := h.valid he
    rw [hget, hvalue, readRelayIdempotencyRecord_serialize hr'] at hread
    exact Option.some.inj hread ▸ hr'

theorem StoreOk.put (h : StoreOk w) (key : Text) (hr : r.Valid) :
    StoreOk (w.put key r.serialize) := by
  refine ⟨fun {k e} he => ?_, fun {k e} he => ?_, h.late,
    fun k => sentInLife_put_le.trans (h.life k)⟩
  · by_cases hk : k = key
    · subst hk
      obtain rfl := Option.some.inj (put_self.symm.trans he)
      exact ⟨r, hr, rfl⟩
    · exact h.valid ((put_of_ne hk).symm.trans he)
  · by_cases hk : k = key
    · subst hk
      obtain rfl := Option.some.inj (put_self.symm.trans he)
      exact le_rfl
    · exact h.lifetime ((put_of_ne hk).symm.trans he)

theorem StoreOk.world {w' : World} (h : StoreOk w) (hs : WorldStep keccak256 lands w w') :
    StoreOk w' := by
  cases hs with
  | tick now hle =>
    exact ⟨h.valid, fun he => (h.lifetime he).trans (Nat.add_le_add_right hle _), h.late, h.life⟩
  | @lands before l after hlate =>
    have hl : l.record.Valid := h.late l (hlate ▸ List.mem_append_right _ List.mem_cons_self)
    have hput := h.put (l.storeKey keccak256) hl
    refine ⟨hput.valid, hput.lifetime, fun l' hl' => h.late l' ?_, hput.life⟩
    rw [hlate]
    exact (List.sublist_cons_self l after).append_left before |>.subset hl'

/-- A write does not take away that nothing has been sent. -/
theorem Unsent.put (h : Unsent w key) (key' value : Text) : Unsent (w.put key' value) key := by
  rcases h with hfree | hzero
  · by_cases hk : key = key'
    · subst hk
      exact .inr (sentInLife_put_self (.inl hfree))
    · exact .inl ((get_put_of_ne hk).trans hfree)
  · exact .inr (Nat.le_zero.mp (hzero ▸ sentInLife_put_le))

theorem Unsent.tick (h : Unsent w key) {now : DateNow}
    (hle : w.now.milliseconds ≤ now.milliseconds) : Unsent { w with now } key :=
  h.imp_left fun hfree => get_eq_none_of_le hfree hle

theorem lasts_put_self (hr : r.Valid) (hP : P r) :
    Lasts (w.put key r.serialize) key P w.expiry := ⟨_, r, put_self, le_rfl, hr, rfl, hP⟩

/-- A write under another key, or of a record of which `P` holds, too. -/
theorem Lasts.put (h : Lasts w key P expiry) (hok : StoreOk w) (hr : r.Valid)
    (hP : key' = key → P r) : Lasts (w.put key' r.serialize) key P expiry := by
  obtain ⟨e, r', he, hexpiry, hr', hvalue, hP'⟩ := h
  by_cases hk : key' = key
  · subst hk
    exact ⟨_, r, put_self, hexpiry.trans (hok.lifetime he), hr, rfl, hP rfl⟩
  · exact ⟨e, r', (put_of_ne (Ne.symm hk)).trans he, hexpiry, hr', hvalue, hP'⟩

/-- A late write under another key, or of a record of which `P` holds, too. -/
theorem Lasts.land (h : Lasts w key P expiry) (hok : StoreOk w) {l : LateWrite}
    (hr : l.record.Valid) (hP : l.storeKey keccak256 = key → P l.record) (late : List LateWrite) :
    Lasts (w.land keccak256 l late) key P expiry := h.put hok hr hP

theorem read_land_self {l : LateWrite} {late : List LateWrite} (hr : l.record.Valid) :
    (w.land keccak256 l late).read (l.storeKey keccak256) = some l.record := read_put_self hr

/-- A read of the key finds the record. -/
theorem Lasts.read (h : Lasts w key P expiry) (hnow : w.now.milliseconds < expiry) :
    ∃ r, w.read key = some r ∧ P r := by
  obtain ⟨e, r, he, hexpiry, hr, hvalue, hP⟩ := h
  exact ⟨r, read_of_entry hr he hvalue (hnow.trans_le hexpiry), hP⟩

end Store

/-! ### What holds of the handler -/

/-- **What a handler may rely on** when no other one runs: in the life of the record that it writes
under the key of its nullifier, no transaction is sent but its own. -/
def Steady (keccak256 : Keccak) (w : World) : Progress → Prop
  | .preparing h n c =>
    (n = some none → Unsent w (h.prepared keccak256).nullifierKey) ∧
      ∀ r, c = some (some r) → r.Valid
  | .ready h => Unsent w (h.prepared keccak256).nullifierKey
  | .writing h record n _ =>
    record.Valid ∧ (record.txHash = none → Unsent w (h.prepared keccak256).nullifierKey ∧
      (n ≠ none → sentInLife (h.prepared keccak256).nullifierKey w.log = 0)) ∧
    ∀ t, n = some t → Lasts w (h.prepared keccak256).nullifierKey (fun _ => True) t
  | .sending h => sentInLife (h.prepared keccak256).nullifierKey w.log = 0
  | _ => True

theorem steady_handleRelayRequest (w : World) (http : HttpRequest) :
    Steady keccak256 w (handleRelayRequest http) := by
  unfold handleRelayRequest
  split_ifs <;> trivial

/-- Any record may be written meanwhile. -/
theorem Steady.put {w : World} {p : Progress} (h : Steady keccak256 w p) (hok : StoreOk w)
    (key : Text) {r : RelayIdempotencyRecord} (hr : r.Valid) :
    Steady keccak256 (w.put key r.serialize) p := by
  have hzero : ∀ {k}, sentInLife k w.log = 0 → sentInLife k (w.put key r.serialize).log = 0 :=
    fun hzero => Nat.le_zero.mp (hzero ▸ sentInLife_put_le)
  cases p with
  | preparing hd n c => exact ⟨fun hn => (h.1 hn).put _ _, h.2⟩
  | ready hd => exact Unsent.put h _ _
  | writing hd record n c =>
    exact ⟨h.1, fun hnone => ⟨(h.2.1 hnone).1.put _ _, fun hn => hzero ((h.2.1 hnone).2 hn)⟩,
      fun t ht => (h.2.2 t ht).put hok hr fun _ => trivial⟩
  | sending hd => exact hzero h
  | _ => exact h

theorem Steady.world {w w' : World} {p : Progress} (h : Steady keccak256 w p) (hok : StoreOk w)
    (hs : WorldStep keccak256 lands w w') : Steady keccak256 w' p := by
  cases hs with
  | tick now hle =>
    cases p with
    | preparing hd n c => exact ⟨fun hn => (h.1 hn).tick hle, h.2⟩
    | ready hd => exact Unsent.tick h hle
    | writing hd record n c =>
      exact ⟨h.1, fun hnone => ⟨(h.2.1 hnone).1.tick hle, (h.2.1 hnone).2⟩, h.2.2⟩
    | _ => exact h
  | @lands before l after hlate =>
    have hl : l.record.Valid := hok.late l (hlate ▸ List.mem_append_right _ List.mem_cons_self)
    have hput := h.put hok (l.storeKey keccak256) hl
    cases p <;> exact hput

theorem valid_of_mem_outstanding {w : World} {p : Progress} (h : Steady keccak256 w p)
    {l : LateWrite} (hl : l ∈ p.outstanding) : l.record.Valid := by
  cases p with
  | writing hd record n c =>
    have hrecord : l.record = record := by
      rcases List.mem_append.mp hl with hl | hl
      all_goals
        split_ifs at hl
        · rw [List.mem_singleton.mp hl]
        · cases hl
    exact hrecord ▸ h.1
  | _ => cases hl

/-- **One step of the handler.** -/
theorem steady_step {w w' : World} {p p' : Progress} (hok : StoreOk w) (h : Steady keccak256 w p)
    (hs : HandlerStep keccak256 normalizes (w, p) (w', p')) :
    StoreOk w' ∧ Steady keccak256 w' p' := by
  cases hs with
  | normalized => exact ⟨hok, (nomatch ·), fun _ hc => nomatch hc⟩
  | readNullifier => exact ⟨hok, fun hn => .inl (hok.free (Option.some.inj hn)), h.2⟩
  | readCalldata => exact ⟨hok, h.1, fun r hr => hok.read_valid (Option.some.inj hr)⟩
  | replied ha =>
    refine ⟨hok, ?_⟩
    unfold relayIdempotencyResponse at ha
    split at ha <;> cases ha <;> trivial
  | @ready _ hd n c hp =>
    have hvalid : ∀ r ∈ c, r.Valid := fun r hr => h.2 r (congrArg some hr)
    obtain ⟨rfl, -, -⟩ := decideRelay_eq_ready hvalid hp
    exact ⟨hok, h.1 rfl⟩
  | checked =>
    exact ⟨hok, pendingRecord_valid _, fun _ => ⟨h, fun hn => absurd rfl hn⟩, fun _ ht => nomatch ht⟩
  | @putNullifier _ hd record c =>
    have hzero : record.txHash = none → sentInLife (hd.prepared keccak256).nullifierKey
        (w.put (hd.prepared keccak256).nullifierKey record.serialize).log = 0 :=
      fun hnone => sentInLife_put_self (h.2.1 hnone).1
    refine ⟨hok.put _ h.1, h.1, fun hnone => ⟨.inr (hzero hnone), fun _ => hzero hnone⟩,
      fun t ht => ?_⟩
    obtain rfl := Option.some.inj ht
    exact lasts_put_self h.1 trivial
  | @putCalldata _ hd record n =>
    have hput := Steady.put h hok (hd.prepared keccak256).calldataKey h.1
    exact ⟨hok.put _ h.1, hput⟩
  | recordedPending hnone => exact ⟨hok, (h.2.1 hnone).2 (Option.some_ne_none _)⟩
  | @sent _ hd txHash hhex =>
    have hvalid : (submittedRecord (hd.prepared keccak256) txHash w.now.epochSeconds).Valid :=
      submittedRecord_valid hd hhex w.now
    refine ⟨⟨hok.valid, hok.lifetime, hok.late, fun key => ?_⟩, hvalid, (nomatch ·),
      fun _ ht => nomatch ht⟩
    change (if _ = key then 1 else 0) + sentInLife key w.log ≤ 1
    split_ifs with hk
    · subst hk
      rw [h]
    · rw [Nat.zero_add]
      exact hok.life key
  | recordedSubmitted => exact ⟨hok, trivial⟩
  | failed =>
    refine ⟨⟨hok.valid, hok.lifetime, fun l hl => ?_, hok.life⟩, ?_⟩
    · rcases List.mem_append.mp hl with hl | hl
      · exact hok.late l hl
      · exact valid_of_mem_outstanding h hl
    · rcases p.handling with _ | hd <;> trivial

/-- **Between any two steps.** -/
theorem steady_run {now : DateNow} {s : SerialState}
    (h : SerialRun keccak256 normalizes lands (SerialState.fresh now) s) :
    StoreOk s.world ∧ Steady keccak256 s.world s.current := by
  induction h with
  | refl => exact ⟨storeOk_fresh now, trivial⟩
  | tail _ hs ih =>
    cases hs with
    | world hs => exact ⟨ih.1.world hs, ih.2.world ih.1 hs⟩
    | starts http hp => exact ⟨ih.1, steady_handleRelayRequest _ _⟩
    | handles hs => exact steady_step ih.1 ih.2 hs

/-! ### Records of submitted requests -/

/-- **The record of a transaction** is under the key of the calldata as soon as it was written there,
as long as it lives. -/
def Recorded (keccak256 : Keccak) (w : World) : Progress → Prop
  | .writing h record _ (some t) => ∀ txHash, record.txHash = some txHash →
    w.now.milliseconds < t → Lasts w (h.prepared keccak256).calldataKey
      (fun r => asSubmitted (some r) = some txHash) t
  | _ => True

theorem nullifierKey_ne_calldataKey (h h' : Handling) :
    (h.prepared keccak256).nullifierKey ≠ (h'.prepared keccak256).calldataKey :=
  nullifierKeyOf_ne_calldataKeyOf h.request.pool_isHex h'.request.pool_isHex _ _

/-- A timely write leaves the hash of a submitted record. -/
theorem Timely.asSubmitted {w : World} {l : LateWrite} (hl : Timely keccak256 w l) {h : Handling}
    {txHash : Text} (hread : ∃ r, w.read (h.prepared keccak256).calldataKey = some r ∧
      asSubmitted (some r) = some txHash)
    (hkey : l.storeKey keccak256 = (h.prepared keccak256).calldataKey) :
    Idempotency.asSubmitted (some l.record) = some txHash := by
  have hcalldata : l.key = .calldata := by
    cases hk : l.key with
    | calldata => rfl
    | nullifier =>
      unfold LateWrite.storeKey at hkey
      rw [hk] at hkey
      exact absurd hkey (nullifierKey_ne_calldataKey _ _)
  obtain ⟨r, hr, hsubmitted⟩ := hread
  refine hl hcalldata txHash ?_
  rw [hkey, hr, hsubmitted]

theorem recorded_world {w w' : World} {p : Progress} (hok : StoreOk w)
    (hlands : ∀ w l, lands w l → Timely keccak256 w l) (h : Recorded keccak256 w p)
    (hs : WorldStep keccak256 lands w w') : Recorded keccak256 w' p := by
  cases p with
  | writing hd record n c =>
    rcases c with _ | t
    · trivial
    · intro txHash hhash hnow
      cases hs with
      | tick now hle => exact h txHash hhash (lt_of_le_of_lt hle hnow)
      | @lands before l after hlate hl =>
        have hlasts := h txHash hhash hnow
        have hvalid := hok.late l (hlate ▸ List.mem_append_right _ List.mem_cons_self)
        exact hlasts.land hok hvalid ((hlands w l hl).asSubmitted (hlasts.read hnow)) _
  | _ => trivial

theorem recorded_step {w w' : World} {p p' : Progress} (hok : StoreOk w)
    (hsteady : Steady keccak256 w p) (h : Recorded keccak256 w p)
    (hs : HandlerStep keccak256 normalizes (w, p) (w', p')) : Recorded keccak256 w' p' := by
  cases hs with
  | @putNullifier _ hd record c =>
    rcases c with _ | t
    · trivial
    · intro txHash hhash hnow
      exact (h txHash hhash hnow).put hok hsteady.1 fun _ =>
        (asSubmitted_of_valid hsteady.1).trans hhash
  | putCalldata =>
    intro txHash hhash _
    exact lasts_put_self hsteady.1 ((asSubmitted_of_valid hsteady.1).trans hhash)
  | _ => trivial

theorem recorded_run {now : DateNow} {s : SerialState}
    (hlands : ∀ w l, lands w l → Timely keccak256 w l)
    (h : SerialRun keccak256 normalizes lands (SerialState.fresh now) s) :
    Recorded keccak256 s.world s.current := by
  induction h with
  | refl => trivial
  | tail hr hs ih =>
    have hsteady := steady_run hr
    cases hs with
    | world hs => exact recorded_world hsteady.1 hlands ih hs
    | starts http hp =>
      unfold handleRelayRequest
      split_ifs <;> trivial
    | handles hs => exact recorded_step hsteady.1 hsteady.2 ih hs

/-! ### Records that live -/

/-- The handler has answered, or has written the record of its transaction. -/
def Progress.IsDone : Progress → Prop
  | .answered _ _ => True
  | .writing _ record (some _) (some _) => record.txHash.isSome = true
  | _ => False

/-- **What a later handler makes of a record under a key**, of which `P` holds: it reads it, so it
is not ready to write under the key. -/
def Guarded (keccak256 : Keccak) (key : Text) (P : RelayIdempotencyRecord → Prop) : Progress → Prop
  | .preparing h n c =>
    ((h.prepared keccak256).nullifierKey = key → ∀ read, n = some read → ∃ r, read = some r ∧ P r) ∧
    ((h.prepared keccak256).calldataKey = key → ∀ read, c = some read → ∃ r, read = some r ∧ P r)
  | .ready h | .writing h _ _ _ | .sending h =>
    (h.prepared keccak256).nullifierKey ≠ key ∧ (h.prepared keccak256).calldataKey ≠ key
  | .answered (some h) answer =>
    ((h.prepared keccak256).calldataKey = key →
      answer = .failed ∨ ∃ r, P r ∧ ∀ txHash, asSubmitted (some r) = some txHash →
        answer = .replayed txHash) ∧
    ∀ txHash, answer = .sent txHash → (h.prepared keccak256).nullifierKey ≠ key
  | _ => True

/-- **A record of which `P` holds lives** at least until a time, and the handlers after the first
`served` ones have seen it. -/
structure Watched (keccak256 : Keccak) (key : Text) (P : RelayIdempotencyRecord → Prop)
    (expiry served : ℕ) (s : SerialState) : Prop where
  live : Lasts s.world key P expiry
  own : s.served = served → Progress.IsDone s.current ∨ ∀ r, P r
  later : served < s.served → Guarded keccak256 key P s.current
  le : served ≤ s.served

section Watch
variable {key : Text} {P : RelayIdempotencyRecord → Prop} {expiry served : ℕ}

theorem guarded_handleRelayRequest (http : HttpRequest) :
    Guarded keccak256 key P (handleRelayRequest http) := by
  unfold handleRelayRequest
  split_ifs <;> trivial

/-- The handler of a withdrawal whose record lives is not ready. -/
theorem Guarded.not_wasReady {p : Progress} {h : Handling} (hg : Guarded keccak256 key P p)
    (hp : p.handling = some h) (hkey : (h.prepared keccak256).nullifierKey = key) : ¬p.WasReady := by
  intro hready
  cases p with
  | received => exact hready
  | preparing => exact hready
  | ready hd =>
    obtain rfl := Option.some.inj hp
    exact hg.1 hkey
  | writing hd =>
    obtain rfl := Option.some.inj hp
    exact hg.1 hkey
  | sending hd =>
    obtain rfl := Option.some.inj hp
    exact hg.1 hkey
  | answered hd answer =>
    obtain ⟨txHash, rfl⟩ := hready
    obtain rfl : hd = some h := hp
    exact hg.2 txHash rfl hkey

theorem relayIdempotencyResponse_ne_sent {d : RelayIdempotencyDecision} {txHash : Text} :
    relayIdempotencyResponse d ≠ some (.sent txHash) := by
  cases d <;> exact (nomatch ·)

/-- A write leaves a record of which `P` holds, when another key is written or `P` holds of all. -/
theorem Watched.put {w : World} {p p' : Progress} {n : ℕ}
    (h : Watched keccak256 key P expiry served ⟨w, p, n⟩) (hok : StoreOk w) {key' : Text}
    {r : RelayIdempotencyRecord} (hr : r.Valid) (hkey : key' ≠ key ∨ ∀ r, P r)
    (hown : n = served → Progress.IsDone p' ∨ ∀ r, P r)
    (hlater : served < n → Guarded keccak256 key P p') :
    Watched keccak256 key P expiry served ⟨w.put key' r.serialize, p', n⟩ :=
  ⟨h.live.put hok hr fun heq => (hkey.resolve_left fun hne => hne heq) r, hown, hlater, h.le⟩

/-- A step that leaves the store alone. -/
theorem Watched.congr {w w' : World} {p p' : Progress} {n : ℕ}
    (h : Watched keccak256 key P expiry served ⟨w, p, n⟩) (hstore : w'.store = w.store)
    (hown : n = served → Progress.IsDone p' ∨ ∀ r, P r)
    (hlater : served < n → Guarded keccak256 key P p') :
    Watched keccak256 key P expiry served ⟨w', p', n⟩ :=
  ⟨by unfold Lasts; rw [hstore]; exact h.live, hown, hlater, h.le⟩

/-- **One step of a handler** while the record lives. -/
theorem watched_step {w w' : World} {p p' : Progress} {n : ℕ}
    (h : Watched keccak256 key P expiry served ⟨w, p, n⟩) (hok : StoreOk w)
    (hsteady : Steady keccak256 w p) (hnow : w.now.milliseconds < expiry)
    (hs : HandlerStep keccak256 normalizes (w, p) (w', p')) :
    Watched keccak256 key P expiry served ⟨w', p', n⟩ := by
  -- the handler that wrote the record is done, or the record may be any
  have hfree : ¬Progress.IsDone p → n = served → ∀ r, P r := fun hp hn => (h.own hn).resolve_left hp
  have hread := h.live.read hnow
  cases hs with
  | normalized =>
    refine h.congr rfl (fun hn => .inr (hfree id hn)) fun _ => ⟨fun _ _ hr => ?_, fun _ _ hr => ?_⟩
    · cases hr
    · cases hr
  | readNullifier =>
    refine h.congr rfl (fun hn => .inr (hfree id hn)) fun hlt => ⟨fun hk r hr => ?_, (h.later hlt).2⟩
    obtain rfl := Option.some.inj hr
    rw [hk]
    exact hread
  | readCalldata =>
    refine h.congr rfl (fun hn => .inr (hfree id hn)) fun hlt => ⟨(h.later hlt).1, fun hk r hr => ?_⟩
    obtain rfl := Option.some.inj hr
    rw [hk]
    exact hread
  | @replied _ hd nr cr answer ha =>
    refine h.congr rfl (fun _ => .inl trivial) fun hlt =>
      ⟨fun hk => .inr ?_, fun txHash hsent => absurd ha ?_⟩
    · obtain ⟨r, rfl, hP⟩ := (h.later hlt).2 hk cr rfl
      refine ⟨r, hP, fun txHash hsubmitted => ?_⟩
      rw [decideRelay_of_submitted hsubmitted] at ha
      exact (Option.some.inj ha).symm
    · rw [hsent]
      exact relayIdempotencyResponse_ne_sent
  | @ready _ hd nr cr hp =>
    refine h.congr rfl (fun hn => .inr (hfree id hn)) fun hlt => ?_
    have hvalid : ∀ r ∈ cr, r.Valid := fun r hr => hsteady.2 r (congrArg some hr)
    obtain ⟨rfl, rfl, -⟩ := decideRelay_eq_ready hvalid hp
    refine ⟨fun hk => ?_, fun hk => ?_⟩
    · obtain ⟨r, hr, -⟩ := (h.later hlt).1 hk none rfl
      cases hr
    · obtain ⟨r, hr, -⟩ := (h.later hlt).2 hk none rfl
      cases hr
  | checked => exact h.congr rfl (fun hn => .inr (hfree id hn)) h.later
  | @putNullifier _ hd record c =>
    refine h.put hok hsteady.1 ?_ (fun hn => .inr (hfree id hn)) h.later
    rcases h.le.eq_or_lt with heq | hlt
    · exact .inr (hfree id heq.symm)
    · exact .inl (h.later hlt).1
  | @putCalldata _ hd record c =>
    have hopen : ¬Progress.IsDone (.writing hd record c none) := by cases c <;> exact id
    refine h.put hok hsteady.1 ?_ (fun hn => .inr (hfree hopen hn)) h.later
    rcases h.le.eq_or_lt with heq | hlt
    · exact .inr (hfree hopen heq.symm)
    · exact .inl (h.later hlt).2
  | @recordedPending _ hd record tn tc hnone =>
    have hopen : ¬Progress.IsDone (.writing hd record (some tn) (some tc)) := by
      intro hsome
      have hsome : record.txHash.isSome = true := hsome
      rw [hnone] at hsome
      cases hsome
    exact h.congr rfl (fun hn => .inr (hfree hopen hn)) h.later
  | sent => exact h.congr rfl (fun hn => .inr (hfree id hn)) h.later
  | recordedSubmitted =>
    exact h.congr rfl (fun _ => .inl trivial) fun hlt =>
      ⟨fun hk => absurd hk (h.later hlt).2, fun _ _ => (h.later hlt).1⟩
  | failed =>
    refine h.congr rfl (fun _ => .inl trivial) fun _ => ?_
    rcases hhandling : p.handling with _ | hd
    · trivial
    · exact ⟨fun _ => .inl rfl, fun _ hsent => nomatch hsent⟩

/-- **As long as the record lives**, and writes that land leave `P`. -/
theorem watched_run {now : DateNow} {s s' : SerialState}
    (hstart : SerialRun keccak256 normalizes lands (SerialState.fresh now) s)
    (h : Watched keccak256 key P expiry served s)
    (hlands : ∀ w l, lands w l → (∃ r, w.read key = some r ∧ P r) →
      l.storeKey keccak256 = key → P l.record)
    (hr : SerialRun keccak256 normalizes lands s s')
    (hnow : s'.world.now.milliseconds < expiry) : Watched keccak256 key P expiry served s' := by
  induction hr with
  | refl => exact h
  | tail hr hs ih =>
    have hsteady := steady_run (hstart.trans hr)
    cases hs with
    | world hs =>
      cases hs with
      | tick now hle =>
        have hbefore := ih (lt_of_le_of_lt hle hnow)
        exact hbefore.congr rfl hbefore.own hbefore.later
      | @lands before l after hlate hl =>
        have hbefore := ih hnow
        have hvalid := hsteady.1.late l (hlate ▸ List.mem_append_right _ List.mem_cons_self)
        have hread := hbefore.live.read hnow
        exact ⟨hbefore.live.land hsteady.1 hvalid (hlands _ _ hl hread) _, hbefore.own,
          hbefore.later, hbefore.le⟩
    | @starts w p n http hp =>
      have hbefore := ih hnow
      have hle : served ≤ n := hbefore.le
      refine ⟨hbefore.live, fun hn => ?_, fun _ => guarded_handleRelayRequest http, hle.trans n.le_succ⟩
      change n + 1 = served at hn
      omega
    | @handles w p w' p' n hs =>
      have hsame : w'.now = w.now := by cases hs <;> rfl
      change w'.now.milliseconds < expiry at hnow
      rw [hsame] at hnow
      exact watched_step (ih hnow) hsteady.1 hsteady.2 hnow hs

end Watch

/-! ### The claims -/

/-- The calldata of two requests is the same, for the same pool. -/
structure SameCalldata (h h' : Handling) : Prop where
  chainId : h'.request.chainId = h.request.chainId
  pool : lower h'.request.pool = lower h.request.pool
  data : h'.request.data = h.request.data

/-- The nullifier of two requests is the same, for the same pool. -/
structure SameNullifier (h h' : Handling) : Prop where
  chainId : h'.request.chainId = h.request.chainId
  pool : lower h'.request.pool = lower h.request.pool
  nullifier : lower h'.request.nullifier = lower h.request.nullifier

theorem SameCalldata.key {h h' : Handling} (hsame : SameCalldata h h') (keccak256 : Keccak) :
    (h'.prepared keccak256).calldataKey = (h.prepared keccak256).calldataKey := by
  change calldataKeyOf _ _ _ = calldataKeyOf _ _ _
  unfold calldataKeyOf
  dsimp only
  rw [hsame.chainId, hsame.pool, hsame.data]

theorem SameNullifier.key {h h' : Handling} (hsame : SameNullifier h h') (keccak256 : Keccak) :
    (h'.prepared keccak256).nullifierKey = (h.prepared keccak256).nullifierKey := by
  change nullifierKeyOf _ _ _ = nullifierKeyOf _ _ _
  unfold nullifierKeyOf
  dsimp only
  rw [hsame.chainId, hsame.pool, hsame.nullifier]

/-- **The answer to a repeated request**: after `recordRelaySubmitted` has written both keys, and
while the record of the calldata lives, the check of a later request with the same calldata decides to
answer with the hash, which is its answer unless it fails. -/
def Replays (keccak256 : Keccak) (normalizes : HttpRequest → NormalizedRelayRequest → Prop)
    (lands : World → LateWrite → Prop) (s : SerialState) : Prop :=
  ∀ h record txHash tn tc, s.current = .writing h record (some tn) (some tc) →
    record.txHash = some txHash →
    ∀ s', SerialRun keccak256 normalizes lands s s' → s.served < s'.served →
      s'.world.now.milliseconds < tc → ∀ h', SameCalldata h h' →
      (∀ n c, s'.current = .preparing h' (some n) (some c) →
        relayIdempotencyResponse (decideRelay (h'.prepared keccak256) n c) =
          some (.replayed txHash)) ∧
      ∀ answer, s'.current = .answered (some h') answer →
        answer = .replayed txHash ∨ answer = .failed

/-- **No later request is ready** while there is a record of its nullifier, which there is as soon
as a pending record was written. -/
def Blocks (keccak256 : Keccak) (normalizes : HttpRequest → NormalizedRelayRequest → Prop)
    (lands : World → LateWrite → Prop) (s : SerialState) : Prop :=
  ∀ h, (∀ record tn tc, s.current = .writing h record (some tn) (some tc) →
      ∃ e, s.world.store (h.prepared keccak256).nullifierKey = some e ∧ tn ≤ e.expiresAt) ∧
    ∀ e, s.world.store (h.prepared keccak256).nullifierKey = some e →
      ∀ s', SerialRun keccak256 normalizes lands s s' → s.served < s'.served →
        s'.world.now.milliseconds < e.expiresAt →
        ∀ h', SameNullifier h h' → s'.current.handling = some h' → ¬s'.current.WasReady

theorem now_le_of_run {s s' : SerialState} (hr : SerialRun keccak256 normalizes lands s s') :
    s.world.now.milliseconds ≤ s'.world.now.milliseconds := by
  induction hr with
  | refl => exact le_rfl
  | tail _ hs ih =>
    cases hs with
    | world hs =>
      cases hs with
      | tick now hle => exact ih.trans hle
      | lands => exact ih
    | starts => exact ih
    | handles hs => exact ih.trans (le_of_eq (by cases hs <;> rfl))

/-- In every run, whenever late writes land. -/
theorem blocks_run {now : DateNow} {s : SerialState}
    (hs : SerialRun keccak256 normalizes lands (SerialState.fresh now) s) :
    Blocks keccak256 normalizes lands s := by
  obtain ⟨hok, hsteady⟩ := steady_run hs
  refine fun h => ⟨fun record tn tc hcurrent => ?_,
    fun e he s' hrun hserved hnow h' hsame hhandling hready => ?_⟩
  · rw [hcurrent] at hsteady
    obtain ⟨e, -, he, hexpiry, -⟩ := hsteady.2.2 tn rfl
    exact ⟨e, he, hexpiry⟩
  · obtain ⟨record, hvalid, hvalue⟩ := hok.valid he
    have hwatched : Watched keccak256 (h.prepared keccak256).nullifierKey (fun _ => True)
        e.expiresAt s.served s :=
      ⟨⟨e, record, he, le_rfl, hvalid, hvalue, trivial⟩, fun _ => .inr fun _ => trivial,
        fun hlt => absurd hlt (lt_irrefl _), le_rfl⟩
    have hguarded := (watched_run hs hwatched (fun _ _ _ _ _ => trivial) hrun hnow).later hserved
    exact hguarded.not_wasReady hhandling (hsame.key keccak256) hready

/-- In every run in which late writes land timely. -/
theorem replays_run {now : DateNow} {s : SerialState}
    (hlands : ∀ w l, lands w l → Timely keccak256 w l)
    (hs : SerialRun keccak256 normalizes lands (SerialState.fresh now) s) :
    Replays keccak256 normalizes lands s := by
  intro h record txHash tn tc hcurrent hhash s' hrun hserved hnow h' hsame
  have hrecorded := recorded_run hlands hs
  rw [hcurrent] at hrecorded
  have hdone : Progress.IsDone s.current := by
    rw [hcurrent]
    exact Option.isSome_iff_exists.mpr ⟨txHash, hhash⟩
  have hwatched : Watched keccak256 (h.prepared keccak256).calldataKey
      (fun r => asSubmitted (some r) = some txHash) tc s.served s :=
    ⟨hrecorded txHash hhash (lt_of_le_of_lt (now_le_of_run hrun) hnow), fun _ => .inl hdone,
      fun hlt => absurd hlt (lt_irrefl _), le_rfl⟩
  have hguarded := (watched_run hs hwatched
    (fun w l hl hread hkey => (hlands w l hl).asSubmitted hread hkey) hrun hnow).later hserved
  refine ⟨fun n c hpreparing => ?_, fun answer hanswer => ?_⟩
  · rw [hpreparing] at hguarded
    obtain ⟨r, rfl, hr⟩ := hguarded.2 (hsame.key keccak256) c rfl
    rw [decideRelay_of_submitted hr]
    rfl
  · rw [hanswer] at hguarded
    rcases hguarded.1 (hsame.key keccak256) with hfailed | ⟨r, hr, hreplay⟩
    · exact .inr hfailed
    · exact .inl (hreplay txHash hr)

/-- **What the relayer promises** of a state: in the life of a record at most one transaction is sent
for its nullifier, a repeated request is answered with its hash, and no request for the same nullifier
is ready. -/
def Promised (keccak256 : Keccak) (normalizes : HttpRequest → NormalizedRelayRequest → Prop)
    (lands : World → LateWrite → Prop) (s : SerialState) : Prop :=
  (∀ chainId pool nullifier,
    sentInLife (nullifierKeyOf chainId pool nullifier) s.world.log ≤ 1) ∧
    Replays keccak256 normalizes lands s ∧ Blocks keccak256 normalizes lands s

/-- **Requests that are handled one at a time.** In every run in which late writes land timely, the
promise holds of every state; but for the answers to repeated requests it holds whenever they land. -/
theorem serial_idempotency {now : DateNow} {s : SerialState}
    (hs : SerialRun keccak256 normalizes lands (SerialState.fresh now) s) :
    ((∀ chainId pool nullifier,
      sentInLife (nullifierKeyOf chainId pool nullifier) s.world.log ≤ 1) ∧
      Blocks keccak256 normalizes lands s) ∧
    ((∀ w l, lands w l → Timely keccak256 w l) → Promised keccak256 normalizes lands s) := by
  have hlife := (steady_run hs).1.life
  exact ⟨⟨fun _ _ _ => hlife _, blocks_run hs⟩,
    fun hlands => ⟨fun _ _ _ => hlife _, replays_run hlands hs, blocks_run hs⟩⟩

/-! ### A handler that fails -/

/-- A hash that keeps hex texts. -/
def sampleKeccak : Keccak where
  hash data := if isHex data then data else "0x0".toList
  isHex_hash data := by
    split_ifs with h
    · exact h
    · decide

def sampleHttp : HttpRequest := ⟨"POST".toList, "/transaction".toList, none, []⟩

def sampleRequest : NormalizedRelayRequest :=
  ⟨4326, "0xab".toList, "0x07".toList, "0x66".toList, by norm_num, by decide, by decide⟩

def sampleNow : DateNow := ⟨0, Nat.zero_le _⟩

def sampleHandling : Handling := ⟨sampleRequest, sampleNow⟩

def sampleNormalizes (_ : HttpRequest) (r : NormalizedRelayRequest) : Prop := r = sampleRequest

def samplePending : RelayIdempotencyRecord :=
  pendingRecord (sampleHandling.prepared sampleKeccak)

def sampleSubmitted : RelayIdempotencyRecord :=
  submittedRecord (sampleHandling.prepared sampleKeccak) "0x34".toList 0

/-- A write of the first handler, which fails while it records that its request is pending. -/
def sampleLate (key : RecordKey) : LateWrite := ⟨sampleHandling, samplePending, key⟩

/-- After the first handler has failed. -/
def sampleFailed : World :=
  { World.fresh sampleNow with late := [sampleLate .nullifier, sampleLate .calldata] }

/-- After the next handler has sent the transaction and has recorded it. -/
def sampleRecorded (w : World) : World :=
  recordedBy sampleKeccak (sentBy sampleKeccak w sampleHandling "0x34".toList) sampleHandling
    sampleSubmitted

def sampleWriting : Progress :=
  .writing sampleHandling sampleSubmitted (some ttlMilliseconds) (some ttlMilliseconds)

theorem sampleLate_valid (key : RecordKey) : (sampleLate key).record.Valid :=
  pendingRecord_valid sampleHandling

theorem sampleSubmitted_valid : sampleSubmitted.Valid :=
  submittedRecord_valid sampleHandling (by decide) sampleNow

/-- The next request is ready where nothing is recorded. -/
theorem sample_ready {w : World} {p : Progress} {n : ℕ} (hnow : w.now = sampleNow)
    (hstore : w.store = empty) (hp : p.isAnswered) :
    SerialRun sampleKeccak sampleNormalizes lands ⟨w, p, n⟩ ⟨w, .ready sampleHandling, n + 1⟩ := by
  have hread : ∀ key, w.read key = none := fun key => read_of_free <| by
    unfold Free
    rw [hstore, get_empty]
  have hstart : SerialRun sampleKeccak sampleNormalizes lands ⟨w, p, n⟩
      ⟨w, .received sampleHttp, n + 1⟩ := .single (.starts sampleHttp hp)
  have hready : HandlerRun sampleKeccak sampleNormalizes (w, .received sampleHttp)
      (w, .ready ⟨sampleRequest, w.now⟩) := handlerRun_ready rfl (hread _) (hread _)
  rw [hnow] at hready
  exact hstart.trans (serialRun_of_handlerRun hready)

/-- The first handler fails, and the next one is ready. -/
theorem sample_failed : SerialRun sampleKeccak sampleNormalizes lands (SerialState.fresh sampleNow)
    ⟨sampleFailed, .ready sampleHandling, 2⟩ := by
  have hready : SerialRun sampleKeccak sampleNormalizes lands (SerialState.fresh sampleNow)
      ⟨World.fresh sampleNow, .ready sampleHandling, 1⟩ :=
    sample_ready rfl rfl (trivial : Progress.isAnswered (.answered none .noContent))
  have hfailed := (hready.tail (.handles .checked)).tail (.handles (.failed id))
  exact hfailed.trans (sample_ready rfl rfl trivial)

/-- A handler that is ready sends its transaction and records it. -/
theorem sample_submitted {w : World} {n : ℕ} (hnow : w.now = sampleNow) :
    SerialRun sampleKeccak sampleNormalizes lands ⟨w, .ready sampleHandling, n⟩
      ⟨sampleRecorded w, sampleWriting, n⟩ := by
  have hhex : isHex "0x34".toList := by decide
  have hsent : HandlerRun sampleKeccak sampleNormalizes (w, .ready sampleHandling)
      (sentBy sampleKeccak w sampleHandling "0x34".toList, .writing sampleHandling
        (submittedRecord (sampleHandling.prepared sampleKeccak) "0x34".toList w.now.epochSeconds)
        none none) := handlerRun_sent hhex
  have hexpiry : ttlMilliseconds = (sentBy sampleKeccak w sampleHandling "0x34".toList).expiry := by
    change _ = w.now.milliseconds + ttlMilliseconds
    rw [hnow]
    exact (Nat.zero_add _).symm
  have hrecorded : HandlerRun sampleKeccak sampleNormalizes
      (sentBy sampleKeccak w sampleHandling "0x34".toList,
        .writing sampleHandling sampleSubmitted none none) (sampleRecorded w, sampleWriting) := by
    unfold sampleWriting
    rw [hexpiry]
    exact handlerRun_recorded _
  rw [hnow] at hsent
  exact serialRun_of_handlerRun (hsent.trans hrecorded)

/-- A later request is answered from the record of its calldata. -/
theorem sample_answered {w : World} {n : ℕ} {r : RelayIdempotencyRecord} {answer : Answer}
    (hnow : w.now = sampleNow) (hread : w.read (sampleHandling.prepared sampleKeccak).calldataKey =
      some r) (hanswer : ∀ nr, relayIdempotencyResponse
      (decideRelay (sampleHandling.prepared sampleKeccak) nr (some r)) = some answer) :
    SerialRun sampleKeccak sampleNormalizes lands ⟨w, sampleWriting, n⟩
      ⟨w, .answered (some sampleHandling) answer, n + 1⟩ := by
  have hsent : SerialRun sampleKeccak sampleNormalizes lands ⟨w, sampleWriting, n⟩
      ⟨w, .answered (some sampleHandling) (.sent "0x34".toList), n⟩ :=
    .single (.handles (.recordedSubmitted rfl))
  have hprepared : HandlerRun sampleKeccak sampleNormalizes (w, .received sampleHttp)
      (w, .preparing ⟨sampleRequest, w.now⟩
        (some (w.read (Handling.prepared sampleKeccak ⟨sampleRequest, w.now⟩).nullifierKey))
        (some (w.read (Handling.prepared sampleKeccak ⟨sampleRequest, w.now⟩).calldataKey))) :=
    handlerRun_prepared rfl
  rw [hnow] at hprepared
  have hreplied := hprepared.tail (.replied (by rw [← hanswer]; exact congrArg _ (by rw [← hread]; rfl)))
  exact (hsent.tail (.starts sampleHttp trivial)).trans (serialRun_of_handlerRun hreplied)

/-- The first handler fails while it records its request, and its writes land during the next one:
under the key of the calldata before that one records anything, and under the key of the nullifier
after it has recorded its transaction. Then the same request is answered with the hash. -/
theorem serial_idempotency_late : ∃ s s', SerialRun sampleKeccak sampleNormalizes
      (Timely sampleKeccak) (SerialState.fresh sampleNow) s ∧ s.current = sampleWriting ∧
    Promised sampleKeccak sampleNormalizes (Timely sampleKeccak) s ∧
    SerialRun sampleKeccak sampleNormalizes (Timely sampleKeccak) s s' ∧ s.served < s'.served ∧
    s'.world.now.milliseconds < ttlMilliseconds ∧
    s'.current = .answered (some sampleHandling) (.replayed "0x34".toList) := by
  have hempty : sampleFailed.read ((sampleLate .calldata).storeKey sampleKeccak) = none :=
    read_of_free rfl
  have hcalldata : Timely sampleKeccak sampleFailed (sampleLate .calldata) := fun _ txHash h => by
    rw [hempty] at h
    cases h
  have hlate : sampleFailed.late = [sampleLate .nullifier] ++ sampleLate .calldata :: [] := rfl
  have hfailed : SerialRun sampleKeccak sampleNormalizes (Timely sampleKeccak)
      (SerialState.fresh sampleNow) ⟨sampleFailed, .ready sampleHandling, 2⟩ := sample_failed
  let w := sampleRecorded
    (sampleFailed.land sampleKeccak (sampleLate .calldata) [sampleLate .nullifier])
  have hrun : SerialRun sampleKeccak sampleNormalizes (Timely sampleKeccak)
      (SerialState.fresh sampleNow) ⟨w, sampleWriting, 2⟩ :=
    (hfailed.tail (.world (.lands hlate hcalldata))).trans (sample_submitted rfl)
  have hlate' : w.late = [] ++ sampleLate .nullifier :: [] := rfl
  let w' := w.land sampleKeccak (sampleLate .nullifier) []
  have hland : SerialRun sampleKeccak sampleNormalizes (Timely sampleKeccak) ⟨w, sampleWriting, 2⟩
      ⟨w', sampleWriting, 2⟩ := .single (.world (.lands hlate' fun h => nomatch h))
  have hread : w'.read (sampleHandling.prepared sampleKeccak).calldataKey = some sampleSubmitted := by
    have hlasts : Lasts w (sampleHandling.prepared sampleKeccak).calldataKey (· = sampleSubmitted)
        ttlMilliseconds := lasts_put_self sampleSubmitted_valid rfl
    have hland : Lasts w' (sampleHandling.prepared sampleKeccak).calldataKey (· = sampleSubmitted)
        ttlMilliseconds :=
      hlasts.land (steady_run hrun).1 (sampleLate_valid .nullifier)
        (fun heq => absurd heq (nullifierKey_ne_calldataKey sampleHandling sampleHandling)) []
    obtain ⟨r, hread, rfl⟩ := hland.read (by decide)
    exact hread
  have hanswered := hland.trans (sample_answered rfl hread fun _ => rfl)
  exact ⟨_, _, hrun, rfl, (serial_idempotency hrun).2 fun _ _ h => h, hanswered, by decide,
    by decide, rfl⟩

/-- **A late write hides a submitted record.** The write of the first handler under the key of the
calldata lands after the next one has recorded its transaction, and the same request is then told that
it is pending. -/
theorem late_write_hides_submission : ¬∀ s, SerialRun sampleKeccak sampleNormalizes Anytime
    (SerialState.fresh sampleNow) s → Promised sampleKeccak sampleNormalizes Anytime s := by
  intro h
  have hfailed : SerialRun sampleKeccak sampleNormalizes Anytime (SerialState.fresh sampleNow)
      ⟨sampleFailed, .ready sampleHandling, 2⟩ := sample_failed
  let w := sampleRecorded sampleFailed
  have hrun : SerialRun sampleKeccak sampleNormalizes Anytime (SerialState.fresh sampleNow)
      ⟨w, sampleWriting, 2⟩ := hfailed.trans (sample_submitted rfl)
  have hlate : w.late = [sampleLate .nullifier] ++ sampleLate .calldata :: [] := rfl
  let w' := w.land sampleKeccak (sampleLate .calldata) [sampleLate .nullifier]
  have hland : SerialRun sampleKeccak sampleNormalizes Anytime ⟨w, sampleWriting, 2⟩
      ⟨w', sampleWriting, 2⟩ := .single (.world (.lands hlate trivial))
  have hread : w'.read (sampleHandling.prepared sampleKeccak).calldataKey = some samplePending :=
    read_land_self (sampleLate_valid .calldata)
  have hanswered := hland.trans (sample_answered rfl hread fun _ => rfl)
  obtain ⟨-, hreplays, -⟩ := h _ hrun
  have hanswer := (hreplays sampleHandling sampleSubmitted "0x34".toList ttlMilliseconds
    ttlMilliseconds rfl rfl _ hanswered (by decide) (by decide) sampleHandling ⟨rfl, rfl, rfl⟩).2
    .pending rfl
  rcases hanswer with hreplayed | hfailed
  · cases hreplayed
  · cases hfailed

end Nullark.Relay.Serial
