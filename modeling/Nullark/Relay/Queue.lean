import Nullark.Relay.Serial

/-! # The queue of the relayer worker

On the main network the worker passes requests on to one durable object, whose handlers run one at a
time. A request that carries the header of the queue is taken for one that comes from there, and is
handled at once, next to the others.

* `WorkerStep`: one step of the worker, of the object or of a handler outside the queue.
* `one_sent_in_life`: without such requests at most one transaction is sent in the life of a record.
* `two_sent_in_life`: with them two can be. -/

namespace Nullark.Relay.Queue

open Nullark.Lib.Hex hiding value Digits ofNat
open Nullark.Lib.ExpiringStore
open Nullark.Js.Basic Nullark.Js.Clock Nullark.Relay.Idempotency Nullark.Relay.Worker
open Nullark.Relay.Serial

/-! ### The code -/

/-- The header says that the request comes from the queue. -/
def fromQueue (http : HttpRequest) : Prop := http.nonceQueue = some "1".toList

instance (http : HttpRequest) : Decidable (fromQueue http) := inferInstanceAs (Decidable (_ = _))

/-- `queueMainnetRelayRequestIfNeeded` passes the request on. -/
def isQueued (http : HttpRequest) : Prop :=
  ¬(http.method = "OPTIONS".toList ∨ fromQueue http) ∧ http.method = "POST".toList ∧
    isRelayEndpointPath http.pathname

/-- **The worker**: the requests that wait, the handler of the durable object, and the handlers that
run outside the queue. -/
structure WorkerState where
  world : World
  queue : List HttpRequest
  current : Progress
  direct : List Progress

/-- **One step**, for the requests that clients send. -/
inductive WorkerStep (keccak256 : Keccak) (normalizes : HttpRequest → NormalizedRelayRequest → Prop)
    (arrives : HttpRequest → Prop) : WorkerState → WorkerState → Prop
  | world {w q p ds w'} (h : WorldStep keccak256 Anytime w w') :
      WorkerStep keccak256 normalizes arrives ⟨w, q, p, ds⟩ ⟨w', q, p, ds⟩
  | queues {w q p ds} (http : HttpRequest) (ha : arrives http) (hq : isQueued http) :
      WorkerStep keccak256 normalizes arrives ⟨w, q, p, ds⟩ ⟨w, q ++ [http], p, ds⟩
  | passes {w q p ds} (http : HttpRequest) (ha : arrives http) (hq : ¬isQueued http) :
      WorkerStep keccak256 normalizes arrives ⟨w, q, p, ds⟩
        ⟨w, q, p, ds ++ [handleRelayRequest http]⟩
  | takes {w http q p ds} (hp : p.isAnswered) :
      WorkerStep keccak256 normalizes arrives ⟨w, http :: q, p, ds⟩
        ⟨w, q, handleRelayRequest http, ds⟩
  | handles {w q p ds w' p'} (h : HandlerStep keccak256 normalizes (w, p) (w', p')) :
      WorkerStep keccak256 normalizes arrives ⟨w, q, p, ds⟩ ⟨w', q, p', ds⟩
  | handlesDirect {w q p d ds ds' w' d'} (h : HandlerStep keccak256 normalizes (w, d) (w', d')) :
      WorkerStep keccak256 normalizes arrives ⟨w, q, p, ds ++ d :: ds'⟩ ⟨w', q, p, ds ++ d' :: ds'⟩

abbrev WorkerRun (keccak256 : Keccak) (normalizes : HttpRequest → NormalizedRelayRequest → Prop)
    (arrives : HttpRequest → Prop) : WorkerState → WorkerState → Prop :=
  Relation.ReflTransGen (WorkerStep keccak256 normalizes arrives)

def WorkerState.fresh (now : DateNow) : WorkerState :=
  ⟨World.fresh now, [], .answered none .noContent, []⟩

/-- **At most one transaction** is sent for a nullifier in the life of its record, whatever the
clients send and however the handlers run. -/
def AtMostOnce (keccak256 : Keccak) (normalizes : HttpRequest → NormalizedRelayRequest → Prop)
    (arrives : HttpRequest → Prop) : Prop :=
  ∀ now s, WorkerRun keccak256 normalizes arrives (WorkerState.fresh now) s →
    ∀ chainId pool nullifier,
      sentInLife (nullifierKeyOf chainId pool nullifier) s.world.log ≤ 1

variable {keccak256 : Keccak} {normalizes : HttpRequest → NormalizedRelayRequest → Prop}
  {arrives : HttpRequest → Prop}

/-! ### Without requests that avoid the queue -/

theorem not_isAnswered_of_step {w w' : World} {p p' : Progress}
    (h : HandlerStep keccak256 normalizes (w, p) (w', p')) : ¬p.isAnswered := by
  cases h with
  | failed hp => exact hp
  | _ => exact id

/-- A request that is not queued and does not carry the header is answered at once. -/
theorem isAnswered_handleRelayRequest {http : HttpRequest} (hq : ¬isQueued http)
    (hheader : http.method = "POST".toList → isRelayEndpointPath http.pathname → ¬fromQueue http) :
    (handleRelayRequest http).isAnswered := by
  unfold handleRelayRequest
  split_ifs with hoptions hpost hpath
  · trivial
  · trivial
  · have hmethod := not_not.mp hpost
    exact absurd ⟨not_or.mpr ⟨hoptions, hheader hmethod hpath⟩, hmethod, hpath⟩ hq
  · trivial

/-- **One handler at a time**: the one of the durable object. -/
structure Alone (keccak256 : Keccak) (s : WorkerState) : Prop where
  store : StoreOk s.world
  steady : Steady keccak256 s.world s.current
  direct : ∀ d ∈ s.direct, d.isAnswered

theorem alone_step {s s' : WorkerState}
    (harrives : ∀ http, arrives http → http.method = "POST".toList →
      isRelayEndpointPath http.pathname → ¬fromQueue http)
    (h : Alone keccak256 s) (hs : WorkerStep keccak256 normalizes arrives s s') :
    Alone keccak256 s' := by
  cases hs with
  | world hs => exact ⟨h.store.world hs, h.steady.world h.store hs, h.direct⟩
  | queues => exact ⟨h.store, h.steady, h.direct⟩
  | passes http ha hq =>
    refine ⟨h.store, h.steady, fun d hd => ?_⟩
    rcases List.mem_append.mp hd with hd | hd
    · exact h.direct d hd
    · rw [List.mem_singleton.mp hd]
      exact isAnswered_handleRelayRequest hq (harrives http ha)
  | takes => exact ⟨h.store, steady_handleRelayRequest _ _, h.direct⟩
  | handles hs =>
    obtain ⟨hstore, hsteady⟩ := steady_step h.store h.steady hs
    exact ⟨hstore, hsteady, h.direct⟩
  | handlesDirect hs =>
    have hanswered := h.direct _ (List.mem_append_right _ List.mem_cons_self)
    exact absurd hanswered (not_isAnswered_of_step hs)

/-- **The queue keeps its promise** in every run in which no client sends a relay request with the
header of the queue. -/
theorem one_sent_in_life
    (harrives : ∀ http, arrives http → http.method = "POST".toList →
      isRelayEndpointPath http.pathname → ¬fromQueue http) :
    AtMostOnce keccak256 normalizes arrives := by
  intro now s hrun chainId pool nullifier
  have halone : Alone keccak256 s := by
    induction hrun with
    | refl => exact ⟨storeOk_fresh now, trivial, fun _ h => absurd h List.not_mem_nil⟩
    | tail _ hs ih => exact alone_step harrives ih hs
  exact halone.store.life _

/-- The sample request does not carry the header. -/
theorem one_sent_in_life_sample :
    AtMostOnce sampleKeccak sampleNormalizes (· = sampleHttp) :=
  one_sent_in_life fun http hhttp _ _ hheader => by
    subst hhttp
    exact nomatch hheader

/-! ### Two requests outside the queue -/

/-- A handler outside the queue goes on by several steps. -/
theorem workerRun_of_handlerRun {w w' : World} {q : List HttpRequest} {p d d' : Progress}
    (ds ds' : List Progress) (h : HandlerRun keccak256 normalizes (w, d) (w', d')) :
    WorkerRun keccak256 normalizes arrives ⟨w, q, p, ds ++ d :: ds'⟩ ⟨w', q, p, ds ++ d' :: ds'⟩ :=
  h.lift (fun x : World × Progress => WorkerState.mk x.1 q p (ds ++ x.2 :: ds'))
    fun _ _ hs => .handlesDirect hs

/-- A request with the header of the queue. -/
def bypassingHttp : HttpRequest := { sampleHttp with nonceQueue := some "1".toList }

/-- Both requests are ready before either is recorded, and both are sent. -/
def sentTwice : World :=
  sentBy sampleKeccak (sentBy sampleKeccak (World.fresh sampleNow) sampleHandling "0x34".toList)
    sampleHandling "0x34".toList

/-- **Two requests that avoid the queue** can both be sent in the life of one record. -/
theorem two_sent_in_life : ¬AtMostOnce sampleKeccak sampleNormalizes (· = bypassingHttp) := by
  intro h
  have hhex : isHex "0x34".toList := by decide
  have hq : ¬isQueued bypassingHttp := fun hqueued => hqueued.1 (.inr rfl)
  have hready : HandlerRun sampleKeccak sampleNormalizes
      (World.fresh sampleNow, .received bypassingHttp)
      (World.fresh sampleNow, .ready sampleHandling) := handlerRun_ready rfl rfl rfl
  have hsent : ∀ w, ∃ d, HandlerRun sampleKeccak sampleNormalizes (w, .ready sampleHandling)
      (sentBy sampleKeccak w sampleHandling "0x34".toList, d) := fun w =>
    ⟨_, handlerRun_sent hhex⟩
  obtain ⟨d, hfirst⟩ := hsent (World.fresh sampleNow)
  obtain ⟨d', hsecond⟩ := hsent (sentBy sampleKeccak (World.fresh sampleNow) sampleHandling
    "0x34".toList)
  have hrun : WorkerRun sampleKeccak sampleNormalizes (· = bypassingHttp)
      (WorkerState.fresh sampleNow) ⟨sentTwice, [], .answered none .noContent, [d, d']⟩ := by
    have harrive : WorkerRun sampleKeccak sampleNormalizes (· = bypassingHttp)
        (WorkerState.fresh sampleNow) ⟨World.fresh sampleNow, [], .answered none .noContent,
          [.received bypassingHttp, .received bypassingHttp]⟩ :=
      .tail (.single (.passes bypassingHttp rfl hq)) (.passes bypassingHttp rfl hq)
    -- both are ready before either has recorded anything
    have hboth := (harrive.trans (workerRun_of_handlerRun [] [.received bypassingHttp] hready)).trans
      (workerRun_of_handlerRun [.ready sampleHandling] [] hready)
    exact (hboth.trans (workerRun_of_handlerRun [] [.ready sampleHandling] hfirst)).trans
      (workerRun_of_handlerRun [d] [] hsecond)
  have hlife : sentInLife (nullifierKeyOf 4326 "0xab".toList "0x07".toList) sentTwice.log ≤ 1 :=
    h sampleNow _ hrun 4326 "0xab".toList "0x07".toList
  have htwo : sentInLife (nullifierKeyOf 4326 "0xab".toList "0x07".toList) sentTwice.log = 2 := by
    decide
  omega

end Nullark.Relay.Queue
