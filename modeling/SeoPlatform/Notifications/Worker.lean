import Mathlib.Logic.Function.Basic
import SeoPlatform.Foundation.TransitionSystem
import SeoPlatform.Notifications.Channels
import SeoPlatform.Notifications.Store
import SeoPlatform.Shared.Events

namespace SeoPlatform.Notifications.Worker

open SeoPlatform.Foundation.JsonValue
open SeoPlatform.Foundation.ConstrainedTable
open SeoPlatform.Notifications.Deliver
open SeoPlatform.Notifications.Channels
open SeoPlatform.Notifications.Store
open SeoPlatform.Shared.Events
open SeoPlatform.Shared.Netguard

/-- The loop of `handle` over the channels: all that are subscribed, and the ones
still to come. -/
structure Loop where
  envelope : Envelope
  body : Dict
  subscribed : List Channel
  rest : List Channel

/-- Where `handle` stands. Before `claiming` it reads the channels, in `claiming`
it is at the head of its loop, in the others inside. -/
inductive Phase where
  | listing (envelope : Envelope)
  | claiming (loop : Loop)
  | sending (loop : Loop) (channel : Channel)
  | finishing (loop : Loop) (channel : Channel) (result : Result)
  | releasing (loop : Loop) (channel : Channel)

/-- The database, the workers on it, and the messages they acknowledged. -/
structure System where
  channels : List Channel
  deliveries : Deliveries
  workers : Nat → Option Phase
  acked : List Envelope

def System.initial : System where
  channels := []
  deliveries := .empty
  workers _ := none
  acked := []

/-- How a statement comes out for the worker that sent it: it is committed and
answered, it is not done, or it is committed and the answer is lost. -/
inductive Answer where
  | done
  | refused
  | lost
  deriving DecidableEq, Repr

inductive Label where
  | subscribe (channel : Channel)
  | deliver (n : Nat) (envelope : Envelope)
  | list (n : Nat) (baseUrl : String) (answer : Answer)
  | claim (n : Nat) (answer : Answer)
  | send (n : Nat) (outside : Circumstances) (cache : Cache)
  | finish (n : Nat) (answer : Answer)
  | release (n : Nat) (answer : Answer)
  | acknowledge (n : Nat)
  | crash (n : Nat)

def System.setWorker (s : System) (n : Nat) (phase : Option Phase) : System :=
  { s with workers := Function.update s.workers n phase }

/-- A statement of a worker: what it writes, and where the worker goes on. Without
an answer the handler raises, and the message is dead-lettered. -/
def System.answered (s : System) (n : Nat) (answer : Answer) (deliveries : Deliveries)
    (next : Phase) : System :=
  { s with
    deliveries := if answer = .refused then s.deliveries else deliveries
    workers := Function.update s.workers n (if answer = .done then some next else none) }

def subscribedTo (channels : List Channel) (e : Envelope) : List Channel :=
  (channelsFor channels e.tenantId).filter fun channel => wants channel e.type.name

/-- The start of `handle`, up to its loop. -/
def listed (s : System) (e : Envelope) (baseUrl : String) : Option Phase :=
  let subscribed := subscribedTo s.channels e
  if subscribed = [] then
    some (.claiming { envelope := e, body := [], subscribed := [], rest := [] })
  else
    match payload e.type.name e.payload baseUrl with
    | .error _ => none
    | .ok body =>
        some (.claiming { envelope := e, body, subscribed, rest := subscribed })

/-- What follows a send whose outcome is recorded. -/
def afterFinish (loop : Loop) (channel : Channel) (result : Result) : Phase :=
  if result.ok then .claiming loop
  else if retryable result.status then .releasing loop channel
  else .claiming loop

def stepList (s : System) (n : Nat) (baseUrl : String) (answer : Answer) : Option System :=
  match s.workers n with
  | some (.listing e) =>
      some (s.setWorker n (if answer = .done then listed s e baseUrl else none))
  | _ => none

def stepClaim (s : System) (n : Nat) (answer : Answer) : Option System :=
  match s.workers n with
  | some (.claiming loop) =>
      match loop.rest with
      | [] => none
      | channel :: rest =>
          let (won, deliveries) :=
            claim s.deliveries channel.id loop.envelope.id loop.envelope.type.name
          let loop := { loop with rest := rest }
          some (s.answered n answer deliveries
            (if won then .sending loop channel else .claiming loop))
  | _ => none

def stepSend (s : System) (n : Nat) (outside : Circumstances) (cache : Cache) : Option System :=
  match s.workers n with
  | some (.sending loop channel) =>
      match (send outside { cache := cache, trace := [] } channel).1 with
      | .error _ => some (s.setWorker n none)
      | .ok result => some (s.setWorker n (some (.finishing loop channel result)))
  | _ => none

def stepFinish (s : System) (n : Nat) (answer : Answer) : Option System :=
  match s.workers n with
  | some (.finishing loop channel result) =>
      some (s.answered n answer
        (finish s.deliveries channel.id loop.envelope.id result.ok result.status
          (if result.ok then none else result.error))
        (afterFinish loop channel result))
  | _ => none

def stepRelease (s : System) (n : Nat) (answer : Answer) : Option System :=
  match s.workers n with
  | some (.releasing loop channel) =>
      some (s.answered n answer (release s.deliveries channel.id loop.envelope.id)
        (.claiming loop))
  | _ => none

/-- `handle` has returned, and the consumer acknowledges. -/
def stepAcknowledge (s : System) (n : Nat) : Option System :=
  match s.workers n with
  | some (.claiming loop) =>
      if loop.rest = [] then
        some { s.setWorker n none with acked := s.acked ++ [loop.envelope] }
      else none
  | _ => none

/-- Any message may come to any idle worker at any time, again or for the first
time. -/
def step (s : System) : Label → Option System
  | .subscribe channel =>
      if s.channels.any (·.id = channel.id) then none
      else some { s with channels := s.channels ++ [channel] }
  | .deliver n e =>
      if (s.workers n).isNone && subscribable.contains e.type.name then
        some (s.setWorker n (some (.listing e)))
      else none
  | .list n baseUrl answer => stepList s n baseUrl answer
  | .claim n answer => stepClaim s n answer
  | .send n outside cache => stepSend s n outside cache
  | .finish n answer => stepFinish s n answer
  | .release n answer => stepRelease s n answer
  | .acknowledge n => stepAcknowledge s n
  | .crash n => some (s.setWorker n none)

/-- A channel and an event. -/
abbrev Pair := String × String

def pairOf (loop : Loop) (channel : Channel) : Pair := (channel.id, loop.envelope.id)

def System.row (s : System) (pair : Pair) : Option Delivery :=
  delivery? s.deliveries pair.1 pair.2

/-- The pair whose claim a handler holds. -/
def Phase.holds : Phase → Option Pair
  | .listing _ | .claiming _ => none
  | .sending loop channel | .finishing loop channel _ | .releasing loop channel =>
      some (pairOf loop channel)

def System.Holds (s : System) (n : Nat) (pair : Pair) : Prop :=
  ∃ phase, s.workers n = some phase ∧ phase.holds = some pair

/-- A send of the pair is in progress in the worker. -/
def System.Sending (s : System) (n : Nat) (pair : Pair) : Prop :=
  ∃ loop channel, s.workers n = some (.sending loop channel) ∧ pairOf loop channel = pair

/-- The worker whose claim wins at this moment, and the pair. -/
def wins (s : System) : Label → Option (Nat × Pair)
  | .claim n answer =>
      match s.workers n with
      | some (.claiming loop) =>
          match loop.rest with
          | [] => none
          | channel :: _ =>
              if (claim s.deliveries channel.id loop.envelope.id loop.envelope.type.name).1 &&
                  answer ≠ .refused then
                some (n, pairOf loop channel)
              else none
      | _ => none
  | _ => none

/-- The worker whose send returns at this moment, the pair, and whether it is ok. -/
def sends (s : System) : Label → Option (Nat × Pair × Bool)
  | .send n outside cache =>
      match s.workers n with
      | some (.sending loop channel) =>
          match (send outside { cache := cache, trace := [] } channel).1 with
          | .error _ => none
          | .ok result => some (n, pairOf loop channel, result.ok)
      | _ => none
  | _ => none

/-- What a step makes of the phase of the worker it is a step of. -/
inductive Turns (s : System) : Label → Nat → Option Phase → Prop
  | delivered {n : Nat} {e : Envelope} : Turns s (.deliver n e) n (some (.listing e))
  | listed {n : Nat} {baseUrl : String} {answer : Answer} {e : Envelope}
      (hphase : s.workers n = some (.listing e)) :
      Turns s (.list n baseUrl answer) n (listed s e baseUrl)
  | won {n : Nat} {answer : Answer} {loop : Loop} {channel : Channel}
      {rest : List Channel} (hphase : s.workers n = some (.claiming loop))
      (hrest : loop.rest = channel :: rest) (hanswer : answer = .done)
      (hwon : (claim s.deliveries channel.id loop.envelope.id
        loop.envelope.type.name).1 = true) :
      Turns s (.claim n answer) n (some (.sending { loop with rest := rest } channel))
  | lost {n : Nat} {answer : Answer} {loop : Loop} {channel : Channel}
      {rest : List Channel} (hphase : s.workers n = some (.claiming loop))
      (hrest : loop.rest = channel :: rest) :
      Turns s (.claim n answer) n (some (.claiming { loop with rest := rest }))
  | sent {n : Nat} {outside : Circumstances} {cache : Cache} {loop : Loop}
      {channel : Channel} {result : Result}
      (hphase : s.workers n = some (.sending loop channel)) :
      Turns s (.send n outside cache) n (some (.finishing loop channel result))
  | finished {n : Nat} {answer : Answer} {loop : Loop} {channel : Channel}
      {result : Result} (hphase : s.workers n = some (.finishing loop channel result)) :
      Turns s (.finish n answer) n (some (afterFinish loop channel result))
  | released {n : Nat} {answer : Answer} {loop : Loop} {channel : Channel}
      (hphase : s.workers n = some (.releasing loop channel)) :
      Turns s (.release n answer) n (some (.claiming loop))
  | stopped {label : Label} {n : Nat}
      (hsend : ∀ m outside cache, label = .send m outside cache → m = n) :
      Turns s label n none

theorem turns_of_step {s s' : System} {label : Label}
    (hlabel : ∀ channel, label ≠ .subscribe channel) (hstep : step s label = some s') :
    ∃ n next, s'.workers = Function.update s.workers n next ∧ Turns s label n next := by
  cases label with
  | subscribe channel => exact absurd rfl (hlabel channel)
  | deliver n e =>
      simp only [step] at hstep
      split at hstep
      · cases hstep
        exact ⟨n, _, rfl, .delivered⟩
      · contradiction
  | list n baseUrl answer =>
      simp only [step, stepList] at hstep
      split at hstep
      · rename_i e hphase
        cases hstep
        refine ⟨n, _, rfl, ?_⟩
        split
        · exact .listed hphase
        · exact .stopped (by simp)
      · contradiction
  | claim n answer =>
      simp only [step, stepClaim] at hstep
      split at hstep
      · rename_i loop hphase
        split at hstep
        · contradiction
        · rename_i channel rest hrest
          cases hstep
          refine ⟨n, _, rfl, ?_⟩
          split
          · rename_i hanswer
            split
            · exact .won hphase hrest hanswer ‹_›
            · exact .lost hphase hrest
          · exact .stopped (by simp)
      · contradiction
  | send n outside cache =>
      simp only [step, stepSend] at hstep
      split at hstep
      · rename_i loop channel hphase
        split at hstep
        · cases hstep
          exact ⟨n, _, rfl, .stopped fun _ _ _ heq => by cases heq; rfl⟩
        · cases hstep
          exact ⟨n, _, rfl, .sent hphase⟩
      · contradiction
  | finish n answer =>
      simp only [step, stepFinish] at hstep
      split at hstep
      · rename_i loop channel result hphase
        cases hstep
        refine ⟨n, _, rfl, ?_⟩
        split
        · exact .finished hphase
        · exact .stopped (by simp)
      · contradiction
  | release n answer =>
      simp only [step, stepRelease] at hstep
      split at hstep
      · rename_i loop channel hphase
        cases hstep
        refine ⟨n, _, rfl, ?_⟩
        split
        · exact .released hphase
        · exact .stopped (by simp)
      · contradiction
  | acknowledge n =>
      simp only [step, stepAcknowledge] at hstep
      split at hstep
      · split at hstep
        · cases hstep
          exact ⟨n, _, rfl, .stopped (by simp)⟩
        · contradiction
      · contradiction
  | crash n =>
      cases hstep
      exact ⟨n, _, rfl, .stopped (by simp)⟩

end SeoPlatform.Notifications.Worker
