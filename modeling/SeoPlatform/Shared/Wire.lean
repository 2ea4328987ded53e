import SeoPlatform.Foundation.JsonText
import SeoPlatform.Shared.Lossless

namespace SeoPlatform.Shared.Wire

open SeoPlatform.Foundation.JsonValue
open SeoPlatform.Foundation.JsonScanners
open SeoPlatform.Foundation.JsonText
open SeoPlatform.Foundation.ConstrainedTable
open SeoPlatform.Foundation.TransitionSystem
open SeoPlatform.Foundation.Mapping
open SeoPlatform.Shared.Contracts
open SeoPlatform.Shared.Events
open SeoPlatform.Shared.Relay
open SeoPlatform.Shared.RelaySafety
open SeoPlatform.Shared.Lossless

variable {φ : Type}

/-- An envelope as a consumer builds it. Nothing checks what its fields are. -/
structure Message (φ : Type) where
  id : Doc φ
  type : Doc φ
  version : Doc φ
  occurredAt : Doc φ
  producer : Doc φ
  correlationId : Doc φ
  causationId : Doc φ
  tenantId : Doc φ
  projectId : Doc φ
  payload : Doc φ

def Message.toDict (m : Message φ) : List (String × Doc φ) :=
  [("id", m.id),
    ("type", m.type),
    ("version", m.version),
    ("occurred_at", m.occurredAt),
    ("producer", m.producer),
    ("correlation_id", m.correlationId),
    ("causation_id", m.causationId),
    ("tenant_id", m.tenantId),
    ("project_id", m.projectId),
    ("payload", m.payload)]

/-- Why a body is no envelope. -/
inductive WireError where
  /-- `UnicodeDecodeError`. -/
  | unicode
  /-- What `json.loads` raises. -/
  | loads (e : LoadsError)
  /-- The `ValueError` of `from_bytes`. -/
  | missing (names : List String)
  | typeError
  deriving DecidableEq, Repr

/-- A subclass of `ValueError`. The surrogates are texts that Python reads and
this model does not. -/
def WireError.isValueError : WireError → Bool
  | .unicode => true
  | .loads e => e = .decode || e = .digits
  | .missing _ => true
  | .typeError => false

/-- The fields an envelope cannot do without, in the order of their names. -/
def requiredNames : List String :=
  ["id", "occurred_at", "payload", "producer", "type", "version"]

def isContainer : Doc φ → Bool
  | .arr _ => true
  | .obj _ => true
  | _ => false

def textOf : Doc φ → Option String
  | .str s => some s
  | _ => none

/-- The texts in `set(raw)`. Only what can be hashed goes into a set. -/
def namesIn : Doc φ → Except WireError (List String)
  | .obj fields => .ok (fields.map Prod.fst)
  | .str s => .ok (s.toList.map String.singleton)
  | .arr items =>
      if items.any isContainer then .error .typeError else .ok (items.filterMap textOf)
  | _ => .error .typeError

/-- `raw.get(name)`. -/
def field (fields : List (String × Doc φ)) (name : String) : Doc φ :=
  (fields.lookup name).getD .null

def Message.ofFields (fields : List (String × Doc φ)) : Message φ where
  id := field fields "id"
  type := field fields "type"
  version := field fields "version"
  occurredAt := field fields "occurred_at"
  producer := field fields "producer"
  correlationId := field fields "correlation_id"
  causationId := field fields "causation_id"
  tenantId := field fields "tenant_id"
  projectId := field fields "project_id"
  payload := field fields "payload"

def missing (names : List String) : List String :=
  requiredNames.filter fun name => name ∉ names

/-- The envelope in a document. -/
def ofDoc (raw : Doc φ) : Except WireError (Message φ) := do
  let names ← namesIn raw
  if missing names = [] then
    match raw with
    | .obj fields => .ok (.ofFields fields)
    | _ => .error .typeError
  else .error (.missing (missing names))

variable (floats : Floats φ)

/-- `Envelope.from_bytes`, with `depth` levels left to go down. -/
def fromBytes (depth : Nat) (body : ByteArray) : Except WireError (Message φ) :=
  match String.fromUTF8? body with
  | none => .error .unicode
  | some text =>
      match loads floats depth text.toList with
      | .error e => .error (.loads e)
      | .ok raw => ofDoc raw

/-- The body `publish` hands to the broker. -/
def bodyOf (depth : Nat) (m : Message φ) : Except DumpsError ByteArray :=
  (dumpDoc floats depth (.obj m.toDict)).map fun text => (String.ofList text).toUTF8

section Envelopes

variable (number : Rat → φ)

mutual

/-- A document of the database, its fractional numbers in the format. -/
def docOf : Json → Doc φ
  | .null => .null
  | .bool b => .bool b
  | .int n => .int n
  | .float q => .float (number q)
  | .str s => .str s
  | .arr items => .arr (docsOf items)
  | .obj fields => .obj (fieldsOf fields)

def docsOf : List Json → List (Doc φ)
  | [] => []
  | v :: items => docOf v :: docsOf items

def fieldsOf : List (String × Json) → List (String × Doc φ)
  | [] => []
  | (name, v) :: fields => (name, docOf v) :: fieldsOf fields

end

def textOrNull : Option String → Doc φ
  | none => .null
  | some s => .str s

/-- An envelope of the relay. `isoformat` is the text of a moment. -/
def messageOf (isoformat : Nat → String) (e : Envelope) : Message φ where
  id := .str e.id
  type := .str e.type.name
  version := .int e.version
  occurredAt := .str (isoformat e.occurredAt)
  producer := .str e.producer
  correlationId := textOrNull e.correlationId
  causationId := textOrNull e.causationId
  tenantId := textOrNull e.tenantId
  projectId := textOrNull e.projectId
  payload := docOf number (.obj e.payload)

end Envelopes

section RoundTrip

variable {floats}

theorem fromUTF8?_toUTF8 (s : String) : String.fromUTF8? s.toUTF8 = some s := by
  have hvalid : s.toUTF8.IsValidUTF8 := s.isValidUTF8
  unfold String.fromUTF8?
  rw [dif_pos hvalid]
  rfl

theorem ofDoc_toDict (m : Message φ) : ofDoc (.obj m.toDict) = .ok m := by
  have hnames : missing (m.toDict.map Prod.fst) = [] := by
    simp only [Message.toDict, List.map_cons, List.map_nil]
    decide
  unfold ofDoc namesIn
  simp only [bind, Except.bind, if_pos hnames]
  rfl

/-- The fields of an envelope whose objects have their names once. -/
structure Message.Proper (m : Message φ) : Prop where
  fields : ∀ field ∈ m.toDict, Distinct field.2

theorem distinct_toDict {m : Message φ} (h : m.Proper) : Distinct (.obj m.toDict) := by
  refine .obj ?_ h.fields
  simp only [Message.toDict, List.map_cons, List.map_nil]
  decide

/-- A consumer reads the envelope that was published. -/
theorem fromBytes_bodyOf {m : Message φ} (hm : m.Proper) {depth : Nat} {body : ByteArray}
    (h : bodyOf floats depth m = .ok body) : fromBytes floats depth body = .ok m := by
  unfold bodyOf at h
  cases hdump : dumpDoc floats depth (.obj m.toDict) with
  | error e =>
      rw [hdump] at h
      cases h
  | ok text =>
      rw [hdump] at h
      cases h
      have hloads := loads_dumpDoc (distinct_toDict hm) hdump
      unfold fromBytes
      rw [fromUTF8?_toUTF8]
      simp only [String.toList_ofList, hloads]
      exact ofDoc_toDict m

end RoundTrip

section Staged

/-- What a run staged. -/
def StagedIn (past : List (System × Label)) (event : PendingEvent) (subject : Subject) : Prop :=
  ∃ moment ∈ past, ∃ n, moment.2 = .stage n event subject

/-- Each row of the table after a step was there before, or is of the label. -/
def FromBefore (s s' : System) (label : Label) : Prop :=
  ∀ v' ∈ s'.heap.rows, (∃ v ∈ s.heap.rows, v.row.toOutboxRow = v'.row.toOutboxRow) ∨
    ∃ n event subject, label = .stage n event subject ∧
      v'.row.toOutboxRow = stagedRow event subject

theorem fromBefore_of_heap {s s' : System} {label : Label} (h : s'.heap = s.heap) :
    FromBefore s s' label :=
  fun v' hv' => .inl ⟨v', h ▸ hv', rfl⟩

theorem fromBefore_of_step {s s' : System} {label : Label} (hstep : step s label = some s') :
    FromBefore s s' label := by
  cases label with
  | tick elapsed =>
      cases hstep
      exact fromBefore_of_heap rfl
  | begin n =>
      simp only [step] at hstep
      split at hstep
      · cases hstep
        exact fromBefore_of_heap rfl
      · contradiction
  | stage n event subject =>
      obtain ⟨began, -, hrest⟩ := Option.bind_eq_some_iff.mp hstep
      split at hrest
      · split at hrest
        · cases hrest
          exact fromBefore_of_heap rfl
        · contradiction
      · obtain ⟨heap, hinsert, heq⟩ := Option.map_eq_some_iff.mp hrest
        cases heq
        obtain ⟨-, hrows⟩ := Table.insert_eq_some.mp hinsert
        intro v' hv'
        rw [show heap.rows = _ from hrows] at hv'
        rcases List.mem_append.mp hv' with hold | hnew
        · exact .inl ⟨v', hold, rfl⟩
        · obtain rfl := List.mem_singleton.mp hnew
          exact .inr ⟨n, event, subject, rfl, rfl⟩
  | commit n =>
      obtain ⟨began, -, heq⟩ := Option.map_eq_some_iff.mp hstep
      cases heq
      intro v' hv'
      obtain ⟨v, hv, rfl⟩ := List.mem_map.mp hv'
      exact .inl ⟨v, hv, by rw [row_committed]⟩
  | rollback n =>
      obtain ⟨began, -, heq⟩ := Option.map_eq_some_iff.mp hstep
      cases heq
      exact fun v' hv' => .inl ⟨v', (Table.mem_delete.mp hv').1, rfl⟩
  | select n batch =>
      simp only [step] at hstep
      split at hstep
      · cases hstep
        exact fromBefore_of_heap rfl
      · contradiction
  | lock n =>
      simp only [step, lockNext] at hstep
      split at hstep
      · cases hstep
        exact fromBefore_of_heap rfl
      · cases hstep
        exact fromBefore_of_heap rfl
      · split at hstep <;> cases hstep <;> exact fromBefore_of_heap rfl
      · contradiction
  | publish n clock first second =>
      simp only [step, publishNext] at hstep
      split at hstep
      · cases hstep
        apply fromBefore_of_heap
        split <;> rfl
      · contradiction
  | mark n =>
      simp only [step, markRow] at hstep
      split at hstep
      · cases hstep
        exact fromBefore_of_heap rfl
      · contradiction
  | finish n =>
      simp only [step, finishRelay] at hstep
      split at hstep
      · cases hstep
        intro v' hv'
        obtain ⟨v, hv, rfl⟩ := List.mem_map.mp hv'
        exact .inl ⟨v, hv, (toOutboxRow_marked _ _ v).1.symm⟩
      · contradiction
  | abort n =>
      simp only [step] at hstep
      split at hstep
      · contradiction
      · cases hstep
        exact fromBefore_of_heap rfl
  | prune keepHours =>
      cases hstep
      exact fun v' hv' => .inl ⟨v', (Table.mem_delete.mp hv').1, rfl⟩

/-- Every row of the table was staged as it stands there. -/
theorem staged_of_run {past : List (System × Label)} {s : System}
    (run : Run step System.initial past s) :
    ∀ v ∈ s.heap.rows, ∃ event subject, StagedIn past event subject ∧
      v.row.toOutboxRow = stagedRow event subject := by
  induction run with
  | refl => exact fun v hv => absurd hv List.not_mem_nil
  | snoc run hstep ih =>
      intro v' hv'
      rcases fromBefore_of_step hstep v' hv' with ⟨v, hv, hrow⟩ | ⟨n, event, subject, hlabel, hrow⟩
      · obtain ⟨event, subject, ⟨moment, hmem, hstaged⟩, heq⟩ := ih v hv
        exact ⟨event, subject, ⟨moment, List.mem_append_left _ hmem, hstaged⟩, hrow ▸ heq⟩
      · exact ⟨event, subject, ⟨_, List.mem_append_right _ (List.mem_singleton_self _), n, hlabel⟩,
          hrow⟩

/-- So was every row the broker has a message of. -/
theorem staged_of_published {past : List (System × Label)} {s : System}
    (run : Run step System.initial past s) :
    ∀ p ∈ s.bus, ∃ event subject, StagedIn past event subject ∧
      p.row.toOutboxRow = stagedRow event subject := by
  induction run with
  | refl => exact fun p hp => absurd hp List.not_mem_nil
  | @snoc past _ _ _ run hstep ih =>
      intro p hp
      have hbefore : ∃ event subject, StagedIn past event subject ∧
          p.row.toOutboxRow = stagedRow event subject := by
        rcases (losesNothing_of_step (sound_of_run run) hstep).own p hp with hold | hrow
        · exact ih p hold
        · exact staged_of_run run _ hrow
      obtain ⟨event, subject, ⟨moment, hmem, hstaged⟩, heq⟩ := hbefore
      exact ⟨event, subject, ⟨moment, List.mem_append_left _ hmem, hstaged⟩, heq⟩

/-- The envelope of an event, made when a relay's clock read `clock`. -/
def envelopeFor (event : PendingEvent) (subject : Subject) (clock : Nat) : Envelope where
  id := event.eventId
  type := event.type
  payload := event.payload
  producer := event.producer
  occurredAt := clock
  correlationId := some (textOr event.correlationId subject.jobId)
  causationId := event.causationId
  tenantId := subject.tenantId
  projectId := subject.projectId

theorem proper_messageOf {number : Rat → φ} {isoformat : Nat → String} {e : Envelope}
    (h : Distinct (docOf number (.obj e.payload))) : (messageOf number isoformat e).Proper := by
  have htext (s : Option String) : Distinct (textOrNull s : Doc φ) := by
    cases s with
    | none => exact .null
    | some s => exact .str s
  constructor
  simp only [Message.toDict, messageOf, List.forall_mem_cons]
  exact ⟨.str _, .str _, .int _, .str _, .str _, htext _, htext _, htext _, htext _, h,
    List.forall_mem_nil _⟩

end Staged

end SeoPlatform.Shared.Wire
