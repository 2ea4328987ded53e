import Mathlib.Data.List.Sort
import SeoPlatform.Foundation.Mapping
import SeoPlatform.Foundation.TransitionSystem
import SeoPlatform.Services.JobWorker

namespace SeoPlatform.Reporting.AutomaticDocuments

open SeoPlatform.Foundation.JsonValue
open SeoPlatform.Foundation.Mapping
open SeoPlatform.Foundation.TransitionSystem
open SeoPlatform.Services.JobWorker (remember)
open SeoPlatform.Shared.Contracts
open SeoPlatform.Shared.Events

section Documents

inductive Backend where
  | files
  | postgres
  deriving DecidableEq

/-- The record of a document. That no one asked for it is not in the record. -/
structure Document where
  reportId : String
  workflowId : String
  status : String := "queued"
  created : Nat
  modified : Nat
  automatic : Bool

/-- What `recent` goes by: files by their last writing, rows by their creation. -/
def Backend.moment : Backend → Document → Nat
  | .files => Document.modified
  | .postgres => Document.created

/-- The newest documents, of any tenant. -/
def recent (backend : Backend) (documents : List Document) (limit : Nat) : List Document :=
  (documents.insertionSort fun a b => backend.moment b ≤ backend.moment a).take limit

/-- `create`. A file is written over, and a row is left as it is. -/
def insert (backend : Backend) (documents : List Document) (document : Document) :
    List Document :=
  if documents.any fun d => d.reportId == document.reportId then
    match backend with
    | .files => documents.map fun d => if d.reportId = document.reportId then document else d
    | .postgres => documents
  else documents ++ [document]

def update (documents : List Document) (reportId status : String) (now : Nat) :
    List Document :=
  documents.map fun d =>
    if d.reportId = reportId then { d with status := status, modified := now } else d

/-- The documents of a workflow that no one asked for. -/
def automaticOf (documents : List Document) (workflowId : String) : Nat :=
  documents.countP fun d => d.automatic && d.workflowId == workflowId

end Documents

section Workers

inductive Stage where
  | received
  | rendering (reportId workflowId : String) (automatic : Bool)
  | creating (reportId workflowId : String) (automatic : Bool)
  | marking (reportId : String)
  | working (reportId : String)

/-- The message a worker handles, and `_seen`. -/
structure Worker where
  job : Option (Envelope × Stage) := none
  seen : List String := []

/-- The documents, and the reporting workers on them. -/
structure System where
  documents : List Document
  workers : Dictionary Nat Worker

def System.initial : System where
  documents := []
  workers := .empty

def System.worker (s : System) (n : Nat) : Worker := (s.workers.get? n).getD {}

def System.setWorker (s : System) (n : Nat) (worker : Worker) : System :=
  { s with workers := s.workers.set n worker }

inductive Next where
  | goto (stage : Stage)
  | returned
  | raised

/-- `_on_workflow` up to `_render`. `uuid` is the one that is drawn. -/
def onWorkflow (backend : Backend) (documents : List Document) (payload : Dict)
    (uuid : String) : Next :=
  match Dict.get payload "workflow_id" with
  | .str workflowId =>
      if workflowId = "" then .returned
      else if (recent backend documents 200).any fun d => d.workflowId == workflowId then .returned
      else .goto (.rendering uuid workflowId true)
  | v => if v.truthy then .raised else .returned

/-- `_on_request` up to `_render`. -/
def onRequest (payload : Dict) (uuid : String) : Next :=
  if Valid .reportRequested payload then
    match Dict.get payload "workflow_id" with
    | .str workflowId =>
        .goto (.rendering (textOr (Dict.get payload "report_id").str? uuid) workflowId false)
    | _ => .raised
  else .raised

def begun (backend : Backend) (documents : List Document) (e : Envelope) (uuid : String) : Next :=
  if e.type = .workflowCompleted then onWorkflow backend documents e.payload uuid
  else onRequest e.payload uuid

/-- The guard of `_render`. -/
def guarded (documents : List Document) (reportId workflowId : String) (automatic : Bool) :
    Next :=
  match documents.find? fun d => d.reportId == reportId with
  | some d =>
      if d.status = "running" ∨ d.status = "completed" then .returned
      else .goto (.marking reportId)
  | none => .goto (.creating reportId workflowId automatic)

/-- A handler that raises sends its message to the dead letters. -/
def settle (s : System) (n : Nat) (e : Envelope) : Next → System
  | .goto stage => s.setWorker n { (s.worker n) with job := some (e, stage) }
  | .returned =>
      s.setWorker n { job := none, seen := remember (s.worker n).seen e.id }
  | .raised => s.setWorker n { (s.worker n) with job := none }

/-- What happens. A document may be asked for over HTTP and rendered there, and a call on
the store may raise. -/
inductive Label where
  | deliver (n : Nat) (e : Envelope)
  | start (n : Nat) (uuid : String)
  | get (n : Nat)
  | create (n now : Nat)
  | mark (n now : Nat)
  | finish (n now : Nat) (completed : Bool)
  | raise (n : Nat)
  | crash (n : Nat)
  | post (uuid workflowId : String) (now : Nat)
  | touch (reportId status : String) (now : Nat)

/-- `uuid4` draws an id once, so no other record has the id of an automatic document. -/
def drawnOnce (documents : List Document) (reportId : String) (automatic : Bool) : Bool :=
  documents.all fun d => d.reportId != reportId || !(automatic || d.automatic)

def step (backend : Backend) (s : System) : Label → Option System
  | .deliver n e =>
      if (s.worker n).job.isSome then none
      else if e.id ∈ (s.worker n).seen then some s
      else some (s.setWorker n { (s.worker n) with job := some (e, .received) })
  | .start n uuid =>
      match (s.worker n).job with
      | some (e, .received) => some (settle s n e (begun backend s.documents e uuid))
      | _ => none
  | .get n =>
      match (s.worker n).job with
      | some (e, .rendering reportId workflowId automatic) =>
          some (settle s n e (guarded s.documents reportId workflowId automatic))
      | _ => none
  | .create n now =>
      match (s.worker n).job with
      | some (e, .creating reportId workflowId automatic) =>
          if drawnOnce s.documents reportId automatic then
            let document : Document :=
              { reportId := reportId
                workflowId := workflowId
                created := now
                modified := now
                automatic := automatic }
            some (settle { s with documents := insert backend s.documents document } n e
              (.goto (.marking reportId)))
          else none
      | _ => none
  | .mark n now =>
      match (s.worker n).job with
      | some (e, .marking reportId) =>
          some (settle { s with documents := update s.documents reportId "running" now } n e
            (.goto (.working reportId)))
      | _ => none
  | .finish n now completed =>
      match (s.worker n).job with
      | some (e, .working reportId) =>
          some (settle { s with
            documents := update s.documents reportId (if completed then "completed" else "failed")
              now } n e .returned)
      | _ => none
  | .raise n =>
      match (s.worker n).job with
      | some (e, _) => some (settle s n e .raised)
      | none => none
  | .crash n => some (s.setWorker n {})
  | .post uuid workflowId now =>
      if s.documents.any fun d => d.reportId == uuid then none
      else
        some { s with
          documents := s.documents ++ [{
            reportId := uuid
            workflowId := workflowId
            created := now
            modified := now
            automatic := false }] }
  | .touch reportId status now =>
      some { s with documents := update s.documents reportId status now }

end Workers

section Condition

/-- The workflow that a handler is about to look for. -/
def Worker.looksFor (worker : Worker) : Option String :=
  match worker.job with
  | some (e, .received) =>
      if e.type = .workflowCompleted then (Dict.get e.payload "workflow_id").str? else none
  | _ => none

/-- A handler has found no document of the workflow, and has not created one. -/
def Stage.pends (workflowId : String) : Stage → Bool
  | .rendering _ w automatic => automatic && w == workflowId
  | .creating _ w automatic => automatic && w == workflowId
  | _ => false

def Worker.pends (worker : Worker) (workflowId : String) : Bool :=
  worker.job.any fun job => job.2.pends workflowId

/-- When a handler looks for documents of a workflow, no other handler is about to create
one for it, and if there is an automatic one, a document of the workflow is among the
newest two hundred. -/
def careful (backend : Backend) (s : System) : Label → Bool
  | .start n _ =>
      match (s.worker n).looksFor with
      | none => true
      | some workflowId =>
          s.workers.values.all (fun worker => !worker.pends workflowId) &&
            (automaticOf s.documents workflowId == 0 ||
              (recent backend s.documents 200).any fun d => d.workflowId == workflowId)
  | _ => true

end Condition

section Counting

variable {documents : List Document} {document : Document} {workflowId : String}

theorem automaticOf_append (documents : List Document) (document : Document)
    (workflowId : String) :
    automaticOf (documents ++ [document]) workflowId = automaticOf documents workflowId +
      if document.automatic && document.workflowId == workflowId then 1 else 0 := by
  unfold automaticOf
  rw [List.countP_append, List.countP_singleton]

theorem automaticOf_update (documents : List Document) (reportId status : String) (now : Nat)
    (workflowId : String) :
    automaticOf (update documents reportId status now) workflowId =
      automaticOf documents workflowId := by
  unfold automaticOf update
  rw [List.countP_map]
  refine List.countP_congr fun d _ => ?_
  rw [Function.comp_apply]
  split <;> rfl

/-- An automatic document is one more, and nothing else changes how many there are. -/
theorem automaticOf_insert {backend : Backend}
    (h : drawnOnce documents document.reportId document.automatic = true) :
    automaticOf (insert backend documents document) workflowId =
      automaticOf documents workflowId +
        if document.automatic && document.workflowId == workflowId then 1 else 0 := by
  unfold insert
  by_cases htaken : (documents.any fun d => d.reportId == document.reportId) = true
  · rw [if_pos htaken]
    have hdrawn : ∀ d ∈ documents, d.reportId = document.reportId →
        document.automatic = false ∧ d.automatic = false := by
      intro d hd hid
      have hone := List.all_eq_true.mp h d hd
      rw [hid, bne_self_eq_false, Bool.false_or, Bool.not_eq_true', Bool.or_eq_false_iff] at hone
      exact hone
    obtain ⟨taken, hmem, hid⟩ := List.any_eq_true.mp htaken
    rw [(hdrawn taken hmem (beq_iff_eq.mp hid)).1, Bool.false_and]
    cases backend with
    | postgres => rfl
    | files =>
        unfold automaticOf
        rw [List.countP_map]
        refine List.countP_congr fun d hd => ?_
        rw [Function.comp_apply]
        by_cases hsame : d.reportId = document.reportId
        · obtain ⟨hnew, hold⟩ := hdrawn d hd hsame
          rw [if_pos hsame, hnew, hold]
          rfl
        · rw [if_neg hsame]
  · rw [if_neg htaken]
    exact automaticOf_append documents document workflowId

end Counting

section Steps

variable {backend : Backend} {s s' : System} {label : Label} {m n : Nat} {workflowId : String}

theorem worker_setWorker (s : System) (n : Nat) (worker : Worker) (m : Nat) :
    (s.setWorker n worker).worker m = if m = n then worker else s.worker m := by
  unfold System.worker System.setWorker
  rw [Dictionary.get?_set]
  split <;> rfl

theorem documents_settle (s : System) (n : Nat) (e : Envelope) (next : Next) :
    (settle s n e next).documents = s.documents := by
  cases next <;> rfl

/-- A handler that goes nowhere is about to create nothing. -/
def Next.pends (workflowId : String) : Next → Bool
  | .goto stage => stage.pends workflowId
  | _ => false

theorem pends_settle (s : System) (n : Nat) (e : Envelope) (next : Next) (m : Nat)
    (workflowId : String) :
    ((settle s n e next).worker m).pends workflowId =
      if m = n then next.pends workflowId else (s.worker m).pends workflowId := by
  cases next with
  | goto stage =>
      unfold settle
      rw [worker_setWorker]
      split <;> rfl
  | returned =>
      unfold settle
      rw [worker_setWorker]
      split <;> rfl
  | raised =>
      unfold settle
      rw [worker_setWorker]
      split <;> rfl

/-- What a step does to the automatic documents, and to who is about to create one. -/
inductive Effect (backend : Backend) (s s' : System) : Label → Prop
  | quiet {label : Label}
      (hdocuments : ∀ w, automaticOf s'.documents w = automaticOf s.documents w)
      (hpends : ∀ m w, (s'.worker m).pends w = true → (s.worker m).pends w = true) :
      Effect backend s s' label
  | looked {n : Nat} {uuid workflowId : String} (hlooks : (s.worker n).looksFor = some workflowId)
      (hnone : ((recent backend s.documents 200).any fun d => d.workflowId == workflowId) = false)
      (hdocuments : s'.documents = s.documents)
      (hpends : ∀ m w, (s'.worker m).pends w = true →
        (s.worker m).pends w = true ∨ m = n ∧ w = workflowId) :
      Effect backend s s' (.start n uuid)
  | created {n now : Nat} {workflowId : String} (hpended : (s.worker n).pends workflowId = true)
      (hdocuments : ∀ w, automaticOf s'.documents w =
        automaticOf s.documents w + if workflowId == w then 1 else 0)
      (hpends : ∀ m w, (s'.worker m).pends w = true → (s.worker m).pends w = true ∧ m ≠ n) :
      Effect backend s s' (.create n now)

/-- A handler that is about to create nothing, and the rest as before. -/
theorem quiet_settle {documents : List Document} {e : Envelope} {next : Next}
    (hdocuments : ∀ w, automaticOf documents w = automaticOf s.documents w)
    (hnext : ∀ w, next.pends w = true → (s.worker n).pends w = true) :
    Effect backend s (settle { s with documents := documents } n e next) label := by
  refine .quiet (fun w => ?_) fun m w hpends => ?_
  · rw [documents_settle]
    exact hdocuments w
  · rw [pends_settle] at hpends
    split at hpends
    · rename_i hsame
      rw [hsame]
      exact hnext w hpends
    · exact hpends

theorem pends_of_job {e : Envelope} {stage : Stage} (hjob : (s.worker n).job = some (e, stage))
    (w : String) : (s.worker n).pends w = stage.pends w := by
  unfold Worker.pends
  rw [hjob]
  rfl

theorem effect_begun {e : Envelope} {uuid : String}
    (hjob : (s.worker n).job = some (e, .received)) :
    Effect backend s (settle s n e (begun backend s.documents e uuid)) (.start n uuid) := by
  have hquiet : ∀ next : Next, (∀ w, next.pends w = false) →
      Effect backend s (settle s n e next) (.start n uuid) := by
    intro next hnext
    refine quiet_settle (s := s) (fun _ => rfl) fun w hpends => ?_
    rw [hnext w] at hpends
    cases hpends
  unfold begun
  split
  · rename_i htype
    unfold onWorkflow
    split
    · rename_i workflowId hworkflow
      split
      · exact hquiet _ fun _ => rfl
      · split
        · exact hquiet _ fun _ => rfl
        · rename_i hnone
          have hlooks : (s.worker n).looksFor = some workflowId := by
            unfold Worker.looksFor
            rw [hjob]
            dsimp only
            rw [if_pos htype, hworkflow, str?_str]
          refine .looked hlooks (eq_false_of_ne_true hnone) (documents_settle ..) ?_
          intro m w hpends
          rw [pends_settle] at hpends
          split at hpends
          · rename_i hsame
            exact .inr ⟨hsame, (beq_iff_eq.mp hpends).symm⟩
          · exact .inl hpends
    · split
      · exact hquiet _ fun _ => rfl
      · exact hquiet _ fun _ => rfl
  · unfold onRequest
    split
    · split
      · exact hquiet _ fun _ => rfl
      · exact hquiet _ fun _ => rfl
    · exact hquiet _ fun _ => rfl

theorem effect_create {e : Envelope} {reportId workflowId : String} {automatic : Bool} {now : Nat}
    {document : Document} (hid : document.reportId = reportId)
    (hworkflow : document.workflowId = workflowId) (hautomatic : document.automatic = automatic)
    (hjob : (s.worker n).job = some (e, .creating reportId workflowId automatic))
    (hdrawn : drawnOnce s.documents reportId automatic = true) :
    Effect backend s (settle { s with documents := insert backend s.documents document } n e
      (.goto (.marking reportId))) (.create n now) := by
  have hcounts : ∀ w, automaticOf (insert backend s.documents document) w =
      automaticOf s.documents w + if automatic && workflowId == w then 1 else 0 := by
    intro w
    rw [automaticOf_insert (by rwa [hid, hautomatic]), hautomatic, hworkflow]
  cases automatic with
  | false =>
      refine quiet_settle (fun w => ?_) fun w hpends => nomatch hpends
      rw [hcounts w, Bool.false_and]
      rfl
  | true =>
      have hpended : (s.worker n).pends workflowId = true := by
        rw [pends_of_job hjob]
        exact beq_self_eq_true workflowId
      refine .created hpended (fun w => ?_) fun m w hpends => ?_
      · rw [documents_settle, hcounts w, Bool.true_and]
      · rw [pends_settle] at hpends
        split at hpends
        · cases hpends
        · rename_i hother
          exact ⟨hpends, hother⟩

theorem effect_step (h : step backend s label = some s') : Effect backend s s' label := by
  cases label with
  | deliver n e =>
      dsimp only [step] at h
      split at h
      · cases h
      · split at h
        · obtain rfl := Option.some.inj h
          exact .quiet (fun _ => rfl) fun _ _ hpends => hpends
        · obtain rfl := Option.some.inj h
          refine .quiet (fun _ => rfl) fun m w hpends => ?_
          rw [worker_setWorker] at hpends
          split at hpends
          · cases hpends
          · exact hpends
  | start n uuid =>
      dsimp only [step] at h
      split at h
      · rename_i e hjob
        obtain rfl := Option.some.inj h
        exact effect_begun hjob
      · cases h
  | get n =>
      dsimp only [step] at h
      split at h
      · rename_i e reportId workflowId automatic hjob
        obtain rfl := Option.some.inj h
        refine quiet_settle (s := s) (fun _ => rfl) fun w hpends => ?_
        rw [pends_of_job hjob]
        unfold guarded at hpends
        split at hpends
        · split at hpends
          · cases hpends
          · cases hpends
        · exact hpends
      · cases h
  | create n now =>
      dsimp only [step] at h
      split at h
      · rename_i e reportId workflowId automatic hjob
        obtain ⟨hdrawn, h⟩ := Option.ite_none_right_eq_some.mp h
        obtain rfl := Option.some.inj h
        exact effect_create rfl rfl rfl hjob hdrawn
      · cases h
  | mark n now =>
      dsimp only [step] at h
      split at h
      · rename_i e reportId hjob
        obtain rfl := Option.some.inj h
        exact quiet_settle (automaticOf_update _ _ _ _) fun w hpends => nomatch hpends
      · cases h
  | finish n now completed =>
      dsimp only [step] at h
      split at h
      · rename_i e reportId hjob
        obtain rfl := Option.some.inj h
        exact quiet_settle (automaticOf_update _ _ _ _) fun w hpends => nomatch hpends
      · cases h
  | raise n =>
      dsimp only [step] at h
      split at h
      · obtain rfl := Option.some.inj h
        exact quiet_settle (s := s) (fun _ => rfl) fun w hpends => nomatch hpends
      · cases h
  | crash n =>
      obtain rfl := Option.some.inj h
      refine .quiet (fun _ => rfl) fun m w hpends => ?_
      rw [worker_setWorker] at hpends
      split at hpends
      · cases hpends
      · exact hpends
  | post uuid workflowId now =>
      dsimp only [step] at h
      split at h
      · cases h
      · obtain rfl := Option.some.inj h
        refine .quiet (fun w => ?_) fun _ _ hpends => hpends
        rw [automaticOf_append, Bool.false_and]
        rfl
  | touch reportId status now =>
      obtain rfl := Option.some.inj h
      exact .quiet (automaticOf_update _ _ _ _) fun _ _ hpends => hpends

end Steps

section Runs

variable {backend : Backend} {s s' : System} {label : Label}
  {past : List (System × Label)}

/-- The invariant of a careful run: who is about to create an automatic document is alone,
and there is none yet. -/
structure OneEach (s : System) : Prop where
  once : ∀ w, automaticOf s.documents w ≤ 1
  first : ∀ n w, (s.worker n).pends w = true → automaticOf s.documents w = 0
  alone : ∀ m n w, (s.worker m).pends w = true → (s.worker n).pends w = true → m = n

theorem oneEach_initial : OneEach .initial :=
  ⟨fun _ => Nat.zero_le _, fun _ _ h => (nomatch h), fun _ _ _ h => (nomatch h)⟩

theorem pends_of_values {workflowId : String}
    (h : (s.workers.values.all fun worker => !worker.pends workflowId) = true) (n : Nat) :
    (s.worker n).pends workflowId = false := by
  unfold System.worker
  cases hworker : s.workers.get? n with
  | none => rfl
  | some worker =>
      have hmem : worker ∈ s.workers.values :=
        List.mem_map.mpr ⟨_, Dictionary.get?_eq_some_iff.mp hworker, rfl⟩
      have hnot := List.all_eq_true.mp h worker hmem
      rwa [Bool.not_eq_true'] at hnot

theorem oneEach_step (h : OneEach s) (hcareful : careful backend s label = true)
    (hstep : step backend s label = some s') : OneEach s' := by
  cases effect_step hstep with
  | quiet hdocuments hpends =>
      refine ⟨fun w => ?_, fun n w hn => ?_, fun m n w hm hn => ?_⟩
      · rw [hdocuments w]
        exact h.once w
      · rw [hdocuments w]
        exact h.first n w (hpends n w hn)
      · exact h.alone m n w (hpends m w hm) (hpends n w hn)
  | @looked n uuid workflowId hlooks hnone hdocuments hpends =>
      have hlone : (∀ m, (s.worker m).pends workflowId = false) ∧
          automaticOf s.documents workflowId = 0 := by
        dsimp only [careful] at hcareful
        rw [hlooks] at hcareful
        dsimp only at hcareful
        rw [hnone, Bool.or_false, Bool.and_eq_true, beq_iff_eq] at hcareful
        exact ⟨pends_of_values hcareful.1, hcareful.2⟩
      obtain ⟨hlone, hzero⟩ := hlone
      refine ⟨fun w => ?_, fun m w hm => ?_, fun m m' w hm hm' => ?_⟩
      · rw [hdocuments]
        exact h.once w
      · rw [hdocuments]
        rcases hpends m w hm with hold | ⟨-, rfl⟩
        · exact h.first m w hold
        · exact hzero
      · rcases hpends m w hm with hold | ⟨hn, hw⟩
        · rcases hpends m' w hm' with hold' | ⟨-, rfl⟩
          · exact h.alone m m' w hold hold'
          · rw [hlone m] at hold
            cases hold
        · rcases hpends m' w hm' with hold' | ⟨hn', -⟩
          · rw [hw, hlone m'] at hold'
            cases hold'
          · rw [hn, hn']
  | @created n now workflowId hpended hdocuments hpends =>
      refine ⟨fun w => ?_, fun m w hm => ?_, fun m m' w hm hm' => ?_⟩
      · rw [hdocuments w]
        by_cases hw : workflowId = w
        · subst hw
          rw [h.first n workflowId hpended, beq_self_eq_true, if_pos rfl]
        · rw [if_neg (by rwa [beq_iff_eq]), Nat.add_zero]
          exact h.once w
      · obtain ⟨hold, hother⟩ := hpends m w hm
        have hw : workflowId ≠ w := by
          rintro rfl
          exact hother (h.alone m n workflowId hold hpended)
        rw [hdocuments w, if_neg (by rwa [beq_iff_eq]), Nat.add_zero]
        exact h.first m w hold
      · exact h.alone m m' w (hpends m w hm).1 (hpends m' w hm').1

/-- In every run in which no handler looks for documents of a workflow while another is
about to create one, and a look finds the document that there is, no workflow has two
documents that no one asked for. -/
theorem automatic_once (run : Run (step backend) .initial past s)
    (hcareful : ∀ moment ∈ past, careful backend moment.1 moment.2 = true) (workflowId : String) :
    automaticOf s.documents workflowId ≤ 1 :=
  (run.invariant_of (fun s label => careful backend s label = true) hcareful OneEach
    oneEach_initial fun _ _ _ h hmet hstep => oneEach_step h hmet hstep).once workflowId

def finished : Envelope where
  id := "message"
  type := .workflowCompleted
  payload := [("workflow_id", .str "w")]
  producer := "orchestrator"
  occurredAt := 0

/-- A worker dies after it has written a document, and another gets the message again. -/
def deliveredAgain : List Label :=
  [.deliver 0 finished, .start 0 "r0", .get 0, .create 0 1, .mark 0 2, .crash 0,
   .post "r" "v" 3, .deliver 1 finished, .start 1 "r1"]

theorem automatic_once_deliveredAgain : ∃ past s,
    past.map Prod.snd = deliveredAgain ∧ Run (step .files) .initial past s ∧
      s.documents.length = 2 ∧ automaticOf s.documents "w" ≤ 1 := by
  obtain ⟨past, s, hlabels, run, hcheck⟩ := Run.of_check (step .files) .initial deliveredAgain
    (fun past s => past.all (fun moment => careful .files moment.1 moment.2) &&
      s.documents.length == 2) (by decide +kernel)
  obtain ⟨hcareful, hlength⟩ := Bool.and_eq_true_iff.mp hcheck
  exact ⟨past, s, hlabels, run, beq_iff_eq.mp hlength,
    automatic_once run (List.all_eq_true.mp hcareful) "w"⟩

/-- The message is delivered to two workers, and both look before either creates. -/
def deliveredToBoth : List Label :=
  [.deliver 0 finished, .deliver 1 finished, .start 0 "r0", .start 1 "r1", .get 0, .get 1,
   .create 0 1, .create 1 2]

theorem automatic_twice : ∃ past s,
    past.map Prod.snd = deliveredToBoth ∧ Run (step .postgres) .initial past s ∧
      automaticOf s.documents "w" = 2 := by
  obtain ⟨past, s, hlabels, run, hcheck⟩ := Run.of_check (step .postgres) .initial
    deliveredToBoth (fun _ s => automaticOf s.documents "w" == 2) (by decide +kernel)
  exact ⟨past, s, hlabels, run, beq_iff_eq.mp hcheck⟩

end Runs

end SeoPlatform.Reporting.AutomaticDocuments
