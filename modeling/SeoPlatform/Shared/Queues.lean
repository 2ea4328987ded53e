import SeoPlatform.Shared.Wire

namespace SeoPlatform.Shared.Queues

open SeoPlatform.Foundation.JsonScanners
open SeoPlatform.Foundation.JsonText
open SeoPlatform.Foundation.TransitionSystem
open SeoPlatform.Shared.Wire

/-- A routing pattern over the words of a key: `*` is one word, `#` any number. -/
def matchWords : List (List Char) → List (List Char) → Bool
  | [], [] => true
  | [], _ :: _ => false
  | pattern :: patterns, [] => pattern = ['#'] && matchWords patterns []
  | pattern :: patterns, word :: words =>
      if pattern = ['#'] then
        matchWords patterns (word :: words) || matchWords (pattern :: patterns) words
      else (pattern = ['*'] || pattern = word) && matchWords patterns words
termination_by patterns words => patterns.length + words.length

def wordsOf (key : String) : List (List Char) := key.toList.splitOn '.'

def routes (patterns : List String) (key : String) : Bool :=
  patterns.any fun pattern => matchWords (wordsOf pattern) (wordsOf key)

structure Delivery where
  number : Nat
  key : String
  body : ByteArray

/-- The two queues of a service, `<queue>` and `<queue>.dlq`, what its consumer
holds unacknowledged, and what it acknowledged and rejected. -/
structure Station where
  declared : Bool := false
  connected : Bool := false
  ready : List Delivery := []
  unacked : List Delivery := []
  acked : List Delivery := []
  rejected : List Delivery := []
  dlq : List Delivery := []

structure Broker (ι : Type) where
  next : Nat
  stations : ι → Station

/-- Before any service has declared its queues. -/
def Broker.initial (ι : Type) : Broker ι where
  next := 0
  stations _ := {}

inductive Label (ι : Type) where
  | publish (key : String) (body : ByteArray)
  | start (i : ι)
  | push (i : ι)
  | handle (i : ι) (returned : Bool)
  | stop (i : ι)

/-- How `_on_message` ends. -/
inductive Verdict where
  | ack
  | deadLetter
  | escapes
  deriving DecidableEq, Repr

section Consumers

variable {φ : Type} (floats : Floats φ) (depth : Nat)

/-- `Consumer._on_message`, given whether the handler returns. -/
def onMessage (body : ByteArray) (returned : Bool) : Verdict :=
  match fromBytes floats depth body with
  | .error e => if e.isValueError then .deadLetter else .escapes
  | .ok _ => if returned then .ack else .deadLetter

/-- The messages a consumer may hold unacknowledged. -/
def prefetch : Nat := 4

def Station.arrive (d : Delivery) (routed : Bool) (station : Station) : Station :=
  if station.declared && routed then { station with ready := station.ready ++ [d] } else station

/-- A dead letter, through the exchange to which each `<queue>.dlq` is bound by `#`. -/
def Station.buried (d : Delivery) (station : Station) : Station :=
  if station.declared && routes ["#"] d.key then { station with dlq := station.dlq ++ [d] }
  else station

/-- The connection is gone, and what it held is back at the front of the queue. -/
def Station.dropped (station : Station) : Station :=
  { station with connected := false, ready := station.unacked ++ station.ready, unacked := [] }

/-- A body whose texts this model's strings do not hold. -/
def unheld (body : ByteArray) : Bool :=
  match fromBytes floats depth body with
  | .error (.loads .surrogate) => true
  | _ => false

variable {ι : Type} [DecidableEq ι]

def Broker.set (b : Broker ι) (i : ι) (station : Station) : Broker ι :=
  { b with stations := Function.update b.stations i station }

def handleNext (b : Broker ι) (i : ι) (returned : Bool) : Option (Broker ι) :=
  let station := b.stations i
  match station.unacked with
  | [] => none
  | d :: rest =>
      match onMessage floats depth d.body returned with
      | .ack => some (b.set i { station with unacked := rest, acked := station.acked ++ [d] })
      | .deadLetter =>
          let settled := b.set i
            { station with unacked := rest, rejected := station.rejected ++ [d] }
          some { settled with stations := fun j => (settled.stations j).buried d }
      | .escapes => some (b.set i station.dropped)

/-- One step of the broker and its consumers. -/
def step (keys : ι → List String) (b : Broker ι) : Label ι → Option (Broker ι)
  | .publish key body =>
      if unheld floats depth body then none
      else some {
        next := b.next + 1
        stations := fun i =>
          (b.stations i).arrive ⟨b.next, key, body⟩ (routes (keys i) key) }
  | .start i =>
      if (b.stations i).connected then none
      else some (b.set i { b.stations i with declared := true, connected := true })
  | .push i =>
      match (b.stations i).ready with
      | [] => none
      | d :: rest =>
          if (b.stations i).connected ∧ (b.stations i).unacked.length < prefetch then
            some (b.set i
              { b.stations i with ready := rest, unacked := (b.stations i).unacked ++ [d] })
          else none
  | .handle i returned => if (b.stations i).connected then handleNext floats depth b i returned
      else none
  | .stop i => if (b.stations i).connected then some (b.set i (b.stations i).dropped) else none

end Consumers

section Poison

/-- What has no fields to look for: no collection, one that cannot be a set, or
a list that holds the names of all the fields. -/
inductive NoFields {φ : Type} : Doc φ → Prop
  | null : NoFields .null
  | bool (b : Bool) : NoFields (.bool b)
  | int (n : Int) : NoFields (.int n)
  | float (x : φ) : NoFields (.float x)
  | containers {items : List (Doc φ)} (h : items.any isContainer = true) : NoFields (.arr items)
  | names {items : List (Doc φ)} (h : ∀ name ∈ requiredNames, .str name ∈ items) :
      NoFields (.arr items)

variable {φ : Type} {floats : Floats φ} {depth : Nat}

variable (floats depth) in
/-- A body that is nested too deep to be read, or reads as what has no fields. -/
def Lethal (body : ByteArray) : Prop :=
  ∃ text, String.fromUTF8? body = some text ∧
    (loads floats depth text.toList = .error .recursion ∨
      ∃ raw, loads floats depth text.toList = .ok raw ∧ NoFields raw)

theorem missing_eq_nil_iff {names : List String} :
    missing names = [] ↔ ∀ name ∈ requiredNames, name ∈ names := by
  unfold missing
  rw [List.filter_eq_nil_iff]
  simp

/-- No field has a name of one character. -/
theorem missing_characters (cs : List Char) : missing (cs.map String.singleton) ≠ [] := by
  rw [Ne, missing_eq_nil_iff]
  intro hall
  obtain ⟨c, -, hc⟩ := List.mem_map.mp (hall "type" (by decide))
  have hlength := congrArg String.length hc
  simp at hlength
  contradiction

theorem ofDoc_typeError_iff {raw : Doc φ} : ofDoc raw = .error .typeError ↔ NoFields raw := by
  cases raw with
  | null => exact iff_of_true rfl .null
  | bool b => exact iff_of_true rfl (.bool b)
  | int n => exact iff_of_true rfl (.int n)
  | float x => exact iff_of_true rfl (.float x)
  | str s =>
      refine iff_of_false ?_ (by rintro ⟨⟩)
      simp [ofDoc, namesIn, bind, Except.bind, missing_characters]
  | obj fields =>
      refine iff_of_false ?_ (by rintro ⟨⟩)
      simp only [ofDoc, namesIn, bind, Except.bind]
      split <;> exact fun h => nomatch h
  | arr items =>
      by_cases hcontainers : items.any isContainer = true
      · refine iff_of_true ?_ (.containers hcontainers)
        simp [ofDoc, namesIn, hcontainers, bind, Except.bind]
      · have hnames : missing (items.filterMap textOf) = [] ↔
            ∀ name ∈ requiredNames, .str name ∈ items := by
          rw [missing_eq_nil_iff]
          refine forall₂_congr fun name _ => ?_
          rw [List.mem_filterMap]
          constructor
          · rintro ⟨v, hv, htext⟩
            cases v with
            | str s =>
                cases htext
                exact hv
            | null | bool | int | float | arr | obj => cases htext
          · exact fun h => ⟨_, h, rfl⟩
        simp only [ofDoc, namesIn, if_neg hcontainers, bind, Except.bind]
        split
        · rename_i hmissing
          exact iff_of_true rfl (.names (hnames.mp hmissing))
        · rename_i hmissing
          refine iff_of_false (fun h => nomatch h) ?_
          intro h
          cases h with
          | containers h => exact hcontainers h
          | names h => exact hmissing (hnames.mpr h)

theorem ofDoc_errors {raw : Doc φ} {e : WireError} (h : ofDoc raw = .error e) :
    e = .typeError ∨ ∃ names, e = .missing names := by
  unfold ofDoc at h
  cases hnames : namesIn raw with
  | error e' =>
      rw [hnames] at h
      cases h
      left
      unfold namesIn at hnames
      split at hnames
      · contradiction
      · contradiction
      · split at hnames
        · exact (Except.error.inj hnames).symm
        · contradiction
      · exact (Except.error.inj hnames).symm
  | ok names =>
      rw [hnames] at h
      simp only [bind, Except.bind] at h
      split at h
      · split at h
        · contradiction
        · exact .inl (Except.error.inj h).symm
      · exact .inr ⟨_, (Except.error.inj h).symm⟩

/-- The exception leaves the consumer on exactly these bodies, whatever the handler does. -/
theorem escapes_iff {body : ByteArray} (hheld : unheld floats depth body = false)
    (returned : Bool) : onMessage floats depth body returned = .escapes ↔
      Lethal floats depth body := by
  unfold unheld at hheld
  unfold onMessage Lethal
  cases htext : String.fromUTF8? body with
  | none => simp [fromBytes, htext, WireError.isValueError]
  | some text =>
      cases hloads : loads floats depth text.toList with
      | error e =>
          have hbytes : fromBytes floats depth body = .error (.loads e) := by
            simp only [fromBytes, htext, hloads]
          rw [hbytes] at hheld ⊢
          cases e <;> simp_all [WireError.isValueError]
      | ok raw =>
          have hbytes : fromBytes floats depth body = ofDoc raw := by
            simp only [fromBytes, htext, hloads]
          rw [hbytes]
          cases hdoc : ofDoc raw with
          | ok m =>
              have hfields : ¬ NoFields raw := fun h => by
                rw [ofDoc_typeError_iff.mpr h] at hdoc
                contradiction
              cases returned <;> simp_all
          | error e =>
              rcases ofDoc_errors hdoc with rfl | ⟨names, rfl⟩
              · have hfields := ofDoc_typeError_iff.mp hdoc
                simp_all [WireError.isValueError]
              · have hfields : ¬ NoFields raw := fun h => by
                  rw [ofDoc_typeError_iff.mpr h] at hdoc
                  cases Except.error.inj hdoc
                simp_all [WireError.isValueError]

end Poison

section Runs

variable {φ : Type} {floats : Floats φ} {depth : Nat} {ι : Type} [DecidableEq ι]
  {keys : ι → List String} {b b' : Broker ι} {label : Label ι} {i : ι}
  {past : List (Broker ι × Label ι)}

/-- Where a message of a service can be. -/
def Station.places (station : Station) : List Delivery :=
  station.ready ++ station.unacked ++ station.acked ++ station.rejected

variable (keys) in
/-- What a step puts into the queue of a service. -/
def sentAt (i : ι) (b : Broker ι) : Label ι → Option Delivery
  | .publish key body =>
      if (b.stations i).declared && routes (keys i) key then some ⟨b.next, key, body⟩ else none
  | _ => none

variable (keys) in
def sentTo (i : ι) (past : List (Broker ι × Label ι)) : List Delivery :=
  past.filterMap fun moment => sentAt keys i moment.1 moment.2

variable (floats depth) in
/-- What a step of any consumer rejects. -/
def rejectedAt (b : Broker ι) : Label ι → Option Delivery
  | .handle i returned =>
      (b.stations i).unacked.head?.filter fun d =>
        onMessage floats depth d.body returned = .deadLetter
  | _ => none

variable (floats depth) in
/-- What was rejected, by whichever consumer, since the queue of a service was there. -/
def buriedFor (j : ι) (past : List (Broker ι × Label ι)) : List Delivery :=
  past.filterMap fun moment =>
    if (moment.1.stations j).declared then rejectedAt floats depth moment.1 moment.2 else none

@[simp] theorem stations_set_self (station : Station) : (b.set i station).stations i = station := by
  simp only [Broker.set, Function.update_self]

theorem stations_set_of_ne {j : ι} (h : j ≠ i) (station : Station) :
    (b.set i station).stations j = b.stations j := by
  simp only [Broker.set, Function.update_of_ne h]

omit [DecidableEq ι] in
theorem filterMap_snoc {f : Broker ι × Label ι → Option Delivery} {moment : Broker ι × Label ι} :
    (past ++ [moment]).filterMap f = past.filterMap f ++ (f moment).toList := by
  rw [List.filterMap_append, List.filterMap_cons, List.filterMap_nil]
  cases f moment <;> rfl

theorem routes_all (key : String) : routes ["#"] key = true := by
  have hwords (words : List (List Char)) : matchWords [['#']] words = true := by
    induction words with
    | nil => simp [matchWords]
    | cons word words ih => simp [matchWords, ih]
  have hpattern : wordsOf "#" = [['#']] := by decide
  simp [routes, hpattern, hwords]

theorem buried_eq (d : Delivery) (station : Station) : station.buried d =
    { station with dlq := station.dlq ++ if station.declared then [d] else [] } := by
  unfold Station.buried
  rw [routes_all, Bool.and_true]
  split <;> simp

def Station.acknowledged (d : Delivery) (rest : List Delivery) (station : Station) : Station :=
  { station with unacked := rest, acked := station.acked ++ [d] }

def Station.refused (d : Delivery) (rest : List Delivery) (station : Station) : Station :=
  { station with unacked := rest, rejected := station.rejected ++ [d] }

/-- What a consumer does with the oldest message it holds. -/
theorem handle_cases {returned : Bool} (hstep : handleNext floats depth b i returned = some b') :
    ∃ d rest, (b.stations i).unacked = d :: rest ∧
      (onMessage floats depth d.body returned = .ack ∧
          b' = b.set i ((b.stations i).acknowledged d rest) ∨
        onMessage floats depth d.body returned = .deadLetter ∧
          b'.next = b.next ∧ (∀ j, b'.stations j =
            ((b.set i ((b.stations i).refused d rest)).stations j).buried d) ∨
        onMessage floats depth d.body returned = .escapes ∧
          b' = b.set i (b.stations i).dropped) := by
  unfold handleNext at hstep
  simp only at hstep
  split at hstep
  · contradiction
  · rename_i d rest hunacked
    refine ⟨d, rest, hunacked, ?_⟩
    split at hstep
    · rename_i hverdict
      cases hstep
      exact .inl ⟨hverdict, rfl⟩
    · rename_i hverdict
      cases hstep
      exact .inr (.inl ⟨hverdict, rfl, fun _ => rfl⟩)
    · rename_i hverdict
      cases hstep
      exact .inr (.inr ⟨hverdict, rfl⟩)

theorem places_buried (d : Delivery) (station : Station) :
    (station.buried d).places = station.places := by
  rw [buried_eq]
  rfl

theorem places_dropped (station : Station) : station.dropped.places.Perm station.places := by
  unfold Station.dropped Station.places
  refine .append_right _ (.append_right _ ?_)
  rw [List.append_nil]
  exact List.perm_append_comm

theorem places_acknowledged {d : Delivery} {rest : List Delivery} {station : Station}
    (h : station.unacked = d :: rest) :
    (station.acknowledged d rest).places.Perm station.places := by
  classical
  rw [List.perm_iff_count]
  intro a
  simp only [Station.acknowledged, Station.places, h, List.count_append, List.count_cons,
    List.count_nil]
  omega

theorem places_refused {d : Delivery} {rest : List Delivery} {station : Station}
    (h : station.unacked = d :: rest) : (station.refused d rest).places.Perm station.places := by
  classical
  rw [List.perm_iff_count]
  intro a
  simp only [Station.refused, Station.places, h, List.count_append, List.count_cons,
    List.count_nil]
  omega

omit [DecidableEq ι] in
theorem places_of_stays {j : ι} (hsent : sentAt keys j b label = none)
    (h : (b'.stations j).places.Perm (b.stations j).places) :
    (b'.stations j).places.Perm ((b.stations j).places ++ (sentAt keys j b label).toList) := by
  rw [hsent, Option.toList_none, List.append_nil]
  exact h

/-- A step moves the messages of a service about, and adds what it sends there. -/
theorem places_of_step (hstep : step floats depth keys b label = some b') (j : ι) :
    (b'.stations j).places.Perm ((b.stations j).places ++ (sentAt keys j b label).toList) := by
  have hset {i : ι} {station : Station} (h : station.places.Perm (b.stations i).places) :
      ((b.set i station).stations j).places.Perm (b.stations j).places := by
    by_cases hij : j = i
    · rw [hij, stations_set_self]
      exact h
    · rw [stations_set_of_ne hij]
  cases label with
  | publish key body =>
      simp only [step] at hstep
      split at hstep
      · contradiction
      · cases hstep
        simp only [sentAt, Station.arrive]
        split
        · classical
          rw [List.perm_iff_count]
          intro a
          simp only [Station.places, Option.toList_some, List.count_append]
          omega
        · simp
  | start i =>
      simp only [step] at hstep
      split at hstep
      · contradiction
      · cases hstep
        exact places_of_stays rfl (hset (.refl _))
  | push i =>
      simp only [step] at hstep
      split at hstep
      · contradiction
      · rename_i d rest hready
        split at hstep
        · cases hstep
          refine places_of_stays rfl (hset ?_)
          classical
          rw [List.perm_iff_count]
          intro a
          simp only [Station.places, hready, List.count_append, List.count_cons, List.count_nil]
          omega
        · contradiction
  | handle i returned =>
      simp only [step] at hstep
      split at hstep
      · obtain ⟨d, rest, hunacked, ⟨-, rfl⟩ | ⟨-, -, hstations⟩ | ⟨-, rfl⟩⟩ := handle_cases hstep
        · exact places_of_stays rfl (hset (places_acknowledged hunacked))
        · refine places_of_stays rfl ?_
          rw [hstations, places_buried]
          exact hset (places_refused hunacked)
        · exact places_of_stays rfl (hset (places_dropped _))
      · contradiction
  | stop i =>
      simp only [step] at hstep
      split at hstep
      · cases hstep
        exact places_of_stays rfl (hset (places_dropped _))
      · contradiction

/-- What was sent to a service is at one place each. -/
theorem places_of_run (run : Run (step floats depth keys) (.initial ι) past b) (j : ι) :
    (b.stations j).places.Perm (sentTo keys j past) := by
  induction run with
  | refl => exact .refl _
  | snoc run hstep ih =>
      unfold sentTo
      rw [filterMap_snoc]
      exact (places_of_step hstep j).trans (.append ih (.refl _))

/-- Only what is published is sent, under the next number. -/
theorem next_of_step (hstep : step floats depth keys b label = some b') :
    (∃ key body, label = .publish key body ∧ unheld floats depth body = false ∧
        b'.next = b.next + 1) ∨
      (∀ j, sentAt keys j b label = none) ∧ b'.next = b.next := by
  cases label with
  | publish key body =>
      simp only [step] at hstep
      split at hstep
      · contradiction
      · rename_i hheld
        cases hstep
        exact .inl ⟨key, body, rfl, Bool.eq_false_iff.mpr hheld, rfl⟩
  | start i =>
      simp only [step] at hstep
      split at hstep
      · contradiction
      · cases hstep
        exact .inr ⟨fun _ => rfl, rfl⟩
  | push i =>
      simp only [step] at hstep
      split at hstep
      · contradiction
      · split at hstep
        · cases hstep
          exact .inr ⟨fun _ => rfl, rfl⟩
        · contradiction
  | handle i returned =>
      simp only [step] at hstep
      split at hstep
      · obtain ⟨d, rest, -, ⟨-, rfl⟩ | ⟨-, hnext, -⟩ | ⟨-, rfl⟩⟩ := handle_cases hstep
        · exact .inr ⟨fun _ => rfl, rfl⟩
        · exact .inr ⟨fun _ => rfl, hnext⟩
        · exact .inr ⟨fun _ => rfl, rfl⟩
      · contradiction
  | stop i =>
      simp only [step] at hstep
      split at hstep
      · cases hstep
        exact .inr ⟨fun _ => rfl, rfl⟩
      · contradiction

omit [DecidableEq ι] in
theorem sentAt_publish {j : ι} {key : String} {body : ByteArray} {d : Delivery}
    (h : sentAt keys j b (.publish key body) = some d) : d = ⟨b.next, key, body⟩ := by
  simp only [sentAt] at h
  split at h
  · exact (Option.some.inj h).symm
  · contradiction

/-- What was sent is numbered in its order. -/
theorem numbers_of_run (run : Run (step floats depth keys) (.initial ι) past b) (j : ι) :
    ((sentTo keys j past).map Delivery.number).Nodup ∧
      ∀ d ∈ sentTo keys j past, d.number < b.next := by
  induction run with
  | refl => exact ⟨.nil, List.forall_mem_nil _⟩
  | @snoc past b b' label run hstep ih =>
      obtain ⟨hnodup, hbound⟩ := ih
      have hnext : b.next ≤ b'.next ∧ ∀ d, sentAt keys j b label = some d →
          d.number = b.next ∧ b'.next = b.next + 1 := by
        rcases next_of_step hstep with ⟨key, body, rfl, -, hgrown⟩ | ⟨hnone, hsame⟩
        · refine ⟨by omega, fun d hd => ⟨?_, hgrown⟩⟩
          rw [sentAt_publish hd]
        · refine ⟨by omega, fun d hd => ?_⟩
          rw [hnone j] at hd
          contradiction
      unfold sentTo at hnodup hbound ⊢
      rw [filterMap_snoc]
      cases hsent : sentAt keys j b label with
      | none =>
          rw [Option.toList_none, List.append_nil]
          exact ⟨hnodup, fun d hd => (hbound d hd).trans_le hnext.1⟩
      | some d =>
          obtain ⟨hnumber, hgrown⟩ := hnext.2 d hsent
          rw [Option.toList_some]
          refine ⟨?_, ?_⟩
          · rw [List.map_append, List.nodup_append]
            refine ⟨hnodup, List.nodup_singleton _, ?_⟩
            rintro m hm n hn rfl
            obtain ⟨old, hold, rfl⟩ := List.mem_map.mp hm
            have hlt := hbound old hold
            rw [List.map_singleton, List.mem_singleton] at hn
            omega
          · intro old hold
            rcases List.mem_append.mp hold with hold | hnew
            · exact (hbound old hold).trans_le hnext.1
            · rw [List.mem_singleton.mp hnew]
              omega

variable (floats depth) in
/-- What a consumer acknowledged it read, and what it rejected it could let go of. -/
structure Settled (station : Station) : Prop where
  acked : ∀ d ∈ station.acked, ∃ m, fromBytes floats depth d.body = .ok m
  rejected : ∀ d ∈ station.rejected, ∃ returned,
    onMessage floats depth d.body returned = .deadLetter

theorem readable_of_ack {body : ByteArray} {returned : Bool}
    (h : onMessage floats depth body returned = .ack) :
    ∃ m, fromBytes floats depth body = .ok m := by
  unfold onMessage at h
  split at h
  · split at h <;> contradiction
  · exact ⟨_, by assumption⟩

theorem settled_of_step (hstep : step floats depth keys b label = some b')
    (h : ∀ j, Settled floats depth (b.stations j)) (j : ι) :
    Settled floats depth (b'.stations j) := by
  have hset {i : ι} {station : Station} (hstation : Settled floats depth station) :
      Settled floats depth ((b.set i station).stations j) := by
    by_cases hij : j = i
    · rw [hij, stations_set_self]
      exact hstation
    · rw [stations_set_of_ne hij]
      exact h j
  cases label with
  | publish key body =>
      simp only [step] at hstep
      split at hstep
      · contradiction
      · cases hstep
        simp only [Station.arrive]
        split
        · exact ⟨(h j).acked, (h j).rejected⟩
        · exact h j
  | start i =>
      simp only [step] at hstep
      split at hstep
      · contradiction
      · cases hstep
        exact hset ⟨(h i).acked, (h i).rejected⟩
  | push i =>
      simp only [step] at hstep
      split at hstep
      · contradiction
      · split at hstep
        · cases hstep
          exact hset ⟨(h i).acked, (h i).rejected⟩
        · contradiction
  | handle i returned =>
      simp only [step] at hstep
      split at hstep
      · obtain ⟨d, rest, -, ⟨hack, rfl⟩ | ⟨hdead, -, hstations⟩ | ⟨-, rfl⟩⟩ :=
          handle_cases hstep
        · refine hset ⟨?_, (h i).rejected⟩
          intro d' hd'
          rcases List.mem_append.mp hd' with hold | hnew
          · exact (h i).acked d' hold
          · rw [List.mem_singleton.mp hnew]
            exact readable_of_ack hack
        · have hrefused : Settled floats depth ((b.stations i).refused d rest) := by
            refine ⟨(h i).acked, ?_⟩
            intro d' hd'
            rcases List.mem_append.mp hd' with hold | hnew
            · exact (h i).rejected d' hold
            · rw [List.mem_singleton.mp hnew]
              exact ⟨returned, hdead⟩
          rw [hstations j, buried_eq]
          exact ⟨(hset hrefused).acked, (hset hrefused).rejected⟩
        · exact hset ⟨(h i).acked, (h i).rejected⟩
      · contradiction
  | stop i =>
      simp only [step] at hstep
      split at hstep
      · cases hstep
        exact hset ⟨(h i).acked, (h i).rejected⟩
      · contradiction

theorem settled_of_run (run : Run (step floats depth keys) (.initial ι) past b) (j : ι) :
    Settled floats depth (b.stations j) :=
  run.invariant (fun b => ∀ j, Settled floats depth (b.stations j))
    (fun _ => ⟨List.forall_mem_nil _, List.forall_mem_nil _⟩)
    (fun _ _ _ h hstep => settled_of_step hstep h) j

/-- Every body that was sent is one whose texts this model's strings hold. -/
theorem held_of_sent (run : Run (step floats depth keys) (.initial ι) past b) {j : ι}
    {d : Delivery} (hd : d ∈ sentTo keys j past) : unheld floats depth d.body = false := by
  obtain ⟨⟨before, label⟩, hmem, hsent⟩ := List.mem_filterMap.mp hd
  obtain ⟨earlier, later, after, -, -, hstep, -⟩ := run.moment hmem
  rcases next_of_step hstep with ⟨key, body, rfl, hheld, -⟩ | ⟨hnone, -⟩
  · rw [sentAt_publish hsent]
    exact hheld
  · rw [hnone j] at hsent
    contradiction

/-- What a consumer settled does not take it down. -/
theorem settled_not_lethal (run : Run (step floats depth keys) (.initial ι) past b) {j : ι}
    {d : Delivery} (hd : d ∈ (b.stations j).acked ++ (b.stations j).rejected) :
    ¬ Lethal floats depth d.body := by
  have hplace : d ∈ (b.stations j).places := by
    unfold Station.places
    rw [List.append_assoc]
    exact List.mem_append_right _ hd
  have hheld := held_of_sent run ((places_of_run run j).mem_iff.mp hplace)
  have hsettled := settled_of_run run j
  intro hlethal
  rcases List.mem_append.mp hd with hacked | hrejected
  · obtain ⟨m, hm⟩ := hsettled.acked d hacked
    have hescapes := (escapes_iff hheld true).mpr hlethal
    simp [onMessage, hm] at hescapes
  · obtain ⟨returned, hdead⟩ := hsettled.rejected d hrejected
    rw [(escapes_iff hheld returned).mpr hlethal] at hdead
    contradiction

/-- A consumer that comes to a lethal message goes down, and the message is back
in its queue. -/
theorem down_of_lethal {returned : Bool} {d : Delivery} {rest : List Delivery}
    (hstep : step floats depth keys b (.handle i returned) = some b')
    (hunacked : (b.stations i).unacked = d :: rest) (hheld : unheld floats depth d.body = false)
    (hlethal : Lethal floats depth d.body) :
    (b'.stations i).connected = false ∧ d ∈ (b'.stations i).ready := by
  have hescapes := (escapes_iff hheld returned).mpr hlethal
  simp only [step] at hstep
  split at hstep
  · obtain ⟨d', rest', hunacked', hcases⟩ := handle_cases hstep
    rw [hunacked] at hunacked'
    cases hunacked'
    rw [hescapes] at hcases
    obtain ⟨hack, -⟩ | ⟨hdead, -⟩ | ⟨-, rfl⟩ := hcases
    · contradiction
    · contradiction
    · rw [stations_set_self]
      refine ⟨rfl, ?_⟩
      simp [Station.dropped, hunacked]
  · contradiction

/-- In every run each message of a queue is at one place once: waiting, held,
acknowledged or rejected. Only an envelope is acknowledged. A message that is
nested too deep, or that has no fields to look for, is never settled: it waits
or is held, and takes down each consumer that comes to it. -/
theorem poison_is_never_settled (run : Run (step floats depth keys) (.initial ι) past b) (i : ι) :
    (b.stations i).places.Perm (sentTo keys i past) ∧
      ((b.stations i).places.map Delivery.number).Nodup ∧
      (∀ d ∈ (b.stations i).acked, ∃ m, fromBytes floats depth d.body = .ok m) ∧
      (∀ d ∈ sentTo keys i past, Lethal floats depth d.body →
        d ∈ (b.stations i).ready ++ (b.stations i).unacked) ∧
      ∀ moment ∈ past, ∀ returned d rest b', moment.2 = .handle i returned →
        step floats depth keys moment.1 moment.2 = some b' →
        (moment.1.stations i).unacked = d :: rest → Lethal floats depth d.body →
          (b'.stations i).connected = false ∧ d ∈ (b'.stations i).ready := by
  have hplaces := places_of_run run i
  refine ⟨hplaces, ?_, (settled_of_run run i).acked, ?_, ?_⟩
  · exact (hplaces.map Delivery.number).nodup_iff.mpr (numbers_of_run run i).1
  · intro d hd hlethal
    have hplace := hplaces.mem_iff.mpr hd
    unfold Station.places at hplace
    rw [List.append_assoc] at hplace
    exact (List.mem_append.mp hplace).resolve_right fun hsettled =>
      settled_not_lethal run hsettled hlethal
  · rintro ⟨before, label⟩ hmem returned d rest b' rfl hstep hunacked hlethal
    obtain ⟨earlier, later, after, -, hearlier, -, -⟩ := run.moment hmem
    have hplace : d ∈ (before.stations i).places := by
      simp only at hunacked
      simp [Station.places, hunacked]
    have hheld := held_of_sent hearlier ((places_of_run hearlier i).mem_iff.mp hplace)
    exact down_of_lethal hstep hunacked hheld hlethal

/-- A consumer is sent the document `null`, and started again after it. -/
def sentNull : List (Label Unit) :=
  [.start (), .publish "crawl.requested" "null".toUTF8, .push (), .handle () true, .start ()]

theorem poison_is_never_settled_sentNull :
    ∃ (past : List (Broker Unit × Label Unit)) (b : Broker Unit),
      past.map Prod.snd = sentNull ∧
      (sentTo (fun _ => ["crawl.requested"]) () past).map Delivery.number = [0] ∧
      (b.stations ()).places.Perm (sentTo (fun _ => ["crawl.requested"]) () past) ∧
      ((b.stations ()).places.map Delivery.number).Nodup ∧
      (∀ d ∈ (b.stations ()).acked, ∃ m, fromBytes specials 100 d.body = .ok m) ∧
      (∀ d ∈ sentTo (fun _ => ["crawl.requested"]) () past, Lethal specials 100 d.body →
        d ∈ (b.stations ()).ready ++ (b.stations ()).unacked) ∧
      ∀ moment ∈ past, ∀ returned d rest b', moment.2 = .handle () returned →
        step specials 100 (fun _ => ["crawl.requested"]) moment.1 moment.2 = some b' →
        (moment.1.stations ()).unacked = d :: rest → Lethal specials 100 d.body →
          (b'.stations ()).connected = false ∧ d ∈ (b'.stations ()).ready := by
  obtain ⟨past, b, hlabels, run, hcheck⟩ :=
    Run.of_check (step specials 100 fun _ => ["crawl.requested"]) (.initial Unit) sentNull
      (fun past b => (sentTo (fun _ => ["crawl.requested"]) () past).map Delivery.number = [0] ∧
        (b.stations ()).ready.map Delivery.number = [0])
      (by decide +kernel)
  have hcheck := of_decide_eq_true hcheck
  exact ⟨past, b, hlabels, hcheck.1, poison_is_never_settled run ()⟩

/-- What a step adds to the dead letters of a service. -/
theorem dlq_of_step (hstep : step floats depth keys b label = some b') (j : ι) :
    (b'.stations j).dlq = (b.stations j).dlq ++
      (if (b.stations j).declared then rejectedAt floats depth b label else none).toList := by
  have hset {i : ι} {station : Station} (h : station.dlq = (b.stations i).dlq) :
      ((b.set i station).stations j).dlq = (b.stations j).dlq := by
    by_cases hij : j = i
    · rw [hij, stations_set_self]
      exact h
    · rw [stations_set_of_ne hij]
  have hsame (hnone : rejectedAt floats depth b label = none)
      (h : (b'.stations j).dlq = (b.stations j).dlq) : (b'.stations j).dlq =
        (b.stations j).dlq ++ (if (b.stations j).declared then rejectedAt floats depth b label
          else none).toList := by
    rw [hnone, ite_self, h, Option.toList_none, List.append_nil]
  cases label with
  | publish key body =>
      simp only [step] at hstep
      split at hstep
      · contradiction
      · cases hstep
        apply hsame rfl
        simp only [Station.arrive]
        split <;> rfl
  | start i =>
      simp only [step] at hstep
      split at hstep
      · contradiction
      · cases hstep
        exact hsame rfl (hset rfl)
  | push i =>
      simp only [step] at hstep
      split at hstep
      · contradiction
      · split at hstep
        · cases hstep
          exact hsame rfl (hset rfl)
        · contradiction
  | handle i returned =>
      simp only [step] at hstep
      split at hstep
      · obtain ⟨d, rest, hunacked, ⟨hack, rfl⟩ | ⟨hdead, -, hstations⟩ | ⟨hescapes, rfl⟩⟩ :=
          handle_cases hstep
        · exact hsame (by simp [rejectedAt, hunacked, hack]) (hset rfl)
        · have hrejected : rejectedAt floats depth b (.handle i returned) = some d := by
            simp [rejectedAt, hunacked, hdead]
          have hdeclared : ((b.set i ((b.stations i).refused d rest)).stations j).declared =
              (b.stations j).declared := by
            by_cases hij : j = i
            · rw [hij, stations_set_self]
              rfl
            · rw [stations_set_of_ne hij]
          have hdlq : ((b.set i ((b.stations i).refused d rest)).stations j).dlq =
              (b.stations j).dlq := hset rfl
          rw [hrejected, hstations j, buried_eq, hdeclared, hdlq]
          split <;> rfl
        · exact hsame (by simp [rejectedAt, hunacked, hescapes]) (hset rfl)
      · contradiction
  | stop i =>
      simp only [step] at hstep
      split at hstep
      · cases hstep
        exact hsame rfl (hset rfl)
      · contradiction

/-- In every run the dead letters of a service are what was rejected since its
queue was declared, whichever service rejected it. -/
theorem dead_letters_are_everyones (run : Run (step floats depth keys) (.initial ι) past b)
    (j : ι) : (b.stations j).dlq = buriedFor floats depth j past := by
  induction run with
  | refl => rfl
  | snoc run hstep ih =>
      rw [dlq_of_step hstep, ih]
      unfold buriedFor
      rw [filterMap_snoc]

/-- A message that is no document is for the service `true`, which rejects it. -/
def sentNonsense : List (Label Bool) :=
  [.start false, .start true, .publish "crawl.requested" "nonsense".toUTF8, .push true,
    .handle true true]

theorem dead_letters_are_everyones_sentNonsense :
    ∃ (past : List (Broker Bool × Label Bool)) (b : Broker Bool),
      past.map Prod.snd = sentNonsense ∧
      (b.stations false).dlq.map Delivery.number = [0] ∧
      (b.stations false).dlq = buriedFor specials 100 false past := by
  obtain ⟨past, b, hlabels, run, hcheck⟩ :=
    Run.of_check
      (step specials 100 fun service => if service then ["crawl.requested"] else ["page.updated"])
      (.initial Bool) sentNonsense
      (fun _ b => (b.stations false).dlq.map Delivery.number = [0]) (by decide +kernel)
  exact ⟨past, b, hlabels, of_decide_eq_true hcheck, dead_letters_are_everyones run false⟩

end Runs

end SeoPlatform.Shared.Queues
