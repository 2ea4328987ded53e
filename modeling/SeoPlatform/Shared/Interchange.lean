import SeoPlatform.Foundation.TransitionSystem
import SeoPlatform.Shared.FileStore
import SeoPlatform.Shared.PostgresStore

namespace SeoPlatform.Shared.Interchange

open SeoPlatform.Foundation.JsonValue
open SeoPlatform.Foundation.SqlTransaction
open SeoPlatform.Foundation.TransitionSystem
open SeoPlatform.Shared.Exceptions
open SeoPlatform.Shared.Jobs
open SeoPlatform.Shared.FileStore
open SeoPlatform.Shared.PostgresStore

inductive Call where
  | create (job : NewJob)
  | markRunning (jobId : String)
  | complete (jobId : String) (result : Dict)
  | fail (jobId error : String)
  | get (jobId : String) (tenantId : Option String)

/-- A call, and the reading of the clock. -/
structure Label where
  clock : Nat
  call : Call

/-- What a caller reads of a record. The job id is what it asked for, and the
moments are those of the store's own clock. -/
structure View where
  subject : String
  status : JobStatus
  result : Option Dict
  error : Option String
  tenantId : Option String
  projectId : Option String

def view (record : JobRecord) : View where
  subject := record.subject
  status := record.status
  result := record.result
  error := record.error
  tenantId := record.tenantId
  projectId := record.projectId

/-- What a call comes to for its caller. -/
inductive Heard where
  | returned (found : Option View)
  | keyError (jobId : String)
  | raised

def hear : Except Exn (Option JobRecord) → Heard
  | .ok found => .returned (found.map view)
  | .error (.keyError jobId) => .keyError jobId
  | .error _ => .raised

/-- The call on a store of files. -/
def inFiles (store : FileJobStore) (clock : Nat) :
    Call → Except Exn (Option JobRecord) × FileJobStore
  | .create job => (.ok (some (store.create job clock).1), (store.create job clock).2)
  | .markRunning jobId => ((store.markRunning jobId clock).map (·.map some) id)
  | .complete jobId result => ((store.complete jobId result clock).map (·.map some) id)
  | .fail jobId error => ((store.fail jobId error clock).map (·.map some) id)
  | .get jobId tenantId => (.ok (store.get jobId tenantId).1, (store.get jobId tenantId).2)

/-- The same call on a database. -/
def inPostgres (server : Server) (clock : Nat) : Call → JobTx (Option JobRecord)
  | .create job => do pure (some (← create server job clock))
  | .markRunning jobId => do pure (some (← markRunning server jobId))
  | .complete jobId result => do pure (some (← complete server jobId result []))
  | .fail jobId error => do pure (some (← fail server jobId error []))
  | .get jobId tenantId => get server jobId tenantId

/-- The two stores, side by side. -/
structure System where
  store : FileJobStore
  db : JobDb

def System.initial : System where
  store := .opened fun _ => none
  db := .empty

def System.atTime (s : System) (clock : Nat) : JobDb := { s.db with clock := clock }

def fromFiles (s : System) (label : Label) : Except Exn (Option JobRecord) :=
  (inFiles s.store label.clock label.call).1

def fromPostgres (server : Server) (s : System) (label : Label) :
    Except Exn (Option JobRecord) :=
  (transaction (inPostgres server label.clock label.call) [] (s.atTime label.clock)).1

def step (server : Server) (s : System) (label : Label) : Option System :=
  some {
    store := (inFiles s.store label.clock label.call).2
    db := (transaction (inPostgres server label.clock label.call) [] (s.atTime label.clock)).2 }

/-- The caller cannot tell the two stores apart. -/
def Alike (server : Server) (s : System) (label : Label) : Prop :=
  hear (fromFiles s label) = hear (fromPostgres server s label)

/-- The text is the spelling the server gives back. -/
def Spelled (server : Server) (text : String) : Prop := server.uuid text = some text

instance (server : Server) : DecidablePred (Spelled server) :=
  fun text => inferInstanceAs (Decidable (server.uuid text = some text))

/-- The record is still what `create` makes of the job. -/
def Untouched (job : NewJob) (record : JobRecord) : Prop :=
  record.subject = job.subject ∧ record.status = .queued ∧ record.result = none ∧
    record.error = none ∧ record.tenantId = job.tenantId ∧ record.projectId = job.projectId

instance (job : NewJob) : DecidablePred (Untouched job) :=
  fun _ => inferInstanceAs (Decidable (_ ∧ _))

/-- The call does not reach one of the differences: a create of a job whose
record has moved on, a text or document that the server refuses, or an id that
it refuses or spells otherwise. -/
def Plain (server : Server) (s : System) : Call → Prop
  | .create job =>
      (∀ record ∈ s.store.find job.jobId, Untouched job record) ∧
        server.takesText job.subject = true ∧ Spelled server job.jobId ∧
        (∀ tenant ∈ job.tenantId, Spelled server tenant) ∧
        (∀ project ∈ job.projectId, Spelled server project) ∧
        server.knows job.tenantId job.projectId = true
  | .markRunning jobId => Spelled server jobId
  | .complete jobId result =>
      Spelled server jobId ∧ server.takesDocument result = true ∧
        (server.derive result).isOk = true
  | .fail jobId error => Spelled server jobId ∧ server.takesText error = true
  | .get jobId tenantId =>
      Spelled server jobId ∧ ∀ tenant ∈ tenantId, Spelled server tenant

instance (server : Server) (s : System) : DecidablePred (Plain server s)
  | .create _ => inferInstanceAs (Decidable (_ ∧ _))
  | .markRunning _ => inferInstanceAs (Decidable (Spelled _ _))
  | .complete _ _ => inferInstanceAs (Decidable (_ ∧ _))
  | .fail _ _ => inferInstanceAs (Decidable (_ ∧ _))
  | .get _ _ => inferInstanceAs (Decidable (_ ∧ _))

/-- The two stores hold records that read alike, and the files keep each record
under its own job id. -/
structure Agree (s : System) : Prop where
  labelled : Labelled s.store.memory ∧ Labelled s.store.files
  views : ∀ jobId, (s.store.find jobId).map view = (s.db.job? jobId).map view

theorem view_of_untouched {job : NewJob} {record : JobRecord} (h : Untouched job record)
    (clock : Nat) : view record = view (job.record clock) := by
  obtain ⟨hsubject, hstatus, hresult, herror, htenant, hproject⟩ := h
  simp [view, NewJob.record, hsubject, hstatus, hresult, herror, htenant, hproject]

theorem view_changed {a b : JobRecord} (h : view a = view b) (changes : Changes) (m n : Nat) :
    view (a.changed changes m) = view (b.changed changes n) := by
  simp only [view, View.mk.injEq] at h
  simp [view, JobRecord.changed, h]

/-- A tenant is shown the same. -/
theorem owned_views {a b : Option JobRecord} (h : a.map view = b.map view)
    {tenantId : Option String} : (owned a tenantId).map view = (owned b tenantId).map view := by
  cases tenantId with
  | none => exact h
  | some tenant =>
      cases a with
      | none =>
          rw [Option.map_eq_none_iff.mp h.symm]
      | some r =>
          obtain ⟨r', rfl, hview⟩ := Option.map_eq_some_iff.mp h.symm
          have htenant : r'.tenantId = r.tenantId := congrArg View.tenantId hview
          by_cases hown : r.tenantId = some tenant
          · simp [owned, Option.filter, htenant, hown, hview]
          · simp [owned, Option.filter, htenant, hown]

theorem labelled_update {records : Records} {jobId : String} {found : Option JobRecord}
    (h : Labelled records) (hfound : ∀ r, found = some r → r.jobId = jobId) :
    Labelled (Function.update records jobId found) := by
  intro other r hr
  rcases eq_or_ne other jobId with rfl | hne
  · rw [Function.update_self] at hr
    exact hfound r hr
  · rw [Function.update_of_ne hne] at hr
    exact h other r hr

section Servers

variable {server : Server}

theorem readId_of_spelled {text : String} (h : Spelled server text) :
    server.readId text = .ok text := by
  unfold Server.readId
  rw [show server.uuid text = some text from h]

theorem readIds_of_spelled {text : Option String} (h : ∀ id ∈ text, Spelled server id) :
    server.readIds text = .ok text := by
  cases text with
  | none => rfl
  | some id =>
      rw [Server.readIds, readId_of_spelled (h id rfl)]
      rfl

theorem row_of_plain {job : NewJob} (htext : server.takesText job.subject = true)
    (hid : Spelled server job.jobId) (htenant : ∀ tenant ∈ job.tenantId, Spelled server tenant)
    (hproject : ∀ project ∈ job.projectId, Spelled server project) :
    server.row job = .ok job := by
  unfold Server.row
  rw [readId_of_spelled hid, readIds_of_spelled htenant, readIds_of_spelled hproject]
  simp [Server.checkText, htext, bind, Except.bind]

theorem setting_running : server.setting .running = .ok .running := rfl

theorem setting_complete {result : Dict} (hdocument : server.takesDocument result = true)
    (hderive : (server.derive result).isOk = true) :
    server.setting (.complete result) = .ok (.complete result) := by
  have hok : server.derive result = .ok () := by
    cases h : server.derive result with
    | ok a => rfl
    | error e =>
        rw [h] at hderive
        contradiction
  simp [Server.setting, Changes.complete, Server.checkText, Server.checkDocument, hdocument,
    hok, Server.readIds, bind, Except.bind]

theorem setting_fail {error : String} (htext : server.takesText error = true) :
    server.setting (.fail error) = .ok (.fail error) := by
  simp [Server.setting, Changes.fail, Server.checkText, Server.checkDocument, htext,
    Server.readIds, bind, Except.bind]

/-- The updates of these calls set no tenant and no project. -/
structure Untenanted (changes : Changes) : Prop where
  tenant : changes.tenantId = none
  project : changes.projectId = none

section Writes

variable {db : JobDb} {jobId : String} {changes : Changes} {record : JobRecord}

theorem updateJob_found (hid : Spelled server jobId)
    (hset : server.setting changes = .ok changes) (htenant : Untenanted changes)
    (hjob : db.job? jobId = some record) :
    Returns (updateJob server jobId changes) (.opened db [])
      (some (record.changed changes db.clock)) (.opened (db.changed jobId changes) []) := by
  apply returns_statement
  have hchanged : (db.changed jobId changes).job? jobId =
      some (record.changed changes db.clock) := by
    rw [job?_changed, if_pos rfl, hjob]
    rfl
  simp [readId_of_spelled hid, hset, hchanged, Server.knows, htenant.tenant, htenant.project,
    bind, Except.bind]

theorem updateJob_missing (hid : Spelled server jobId)
    (hset : server.setting changes = .ok changes) (hjob : db.job? jobId = none) :
    Returns (updateJob server jobId changes) (.opened db []) none (.opened db []) := by
  apply returns_statement
  have hchanged : (db.changed jobId changes).job? jobId = none := by
    rw [job?_changed, if_pos rfl, hjob]
    rfl
  simp [readId_of_spelled hid, hset, hchanged, bind, Except.bind]

theorem write_found (hid : Spelled server jobId) (hset : server.setting changes = .ok changes)
    (htenant : Untenanted changes) (hjob : db.job? jobId = some record) :
    transaction (do pure (some (← write server jobId changes []))) [] db =
      (.ok (some (record.changed changes db.clock)), db.changed jobId changes) := by
  apply transaction_of_returns
  refine bind_returns.mpr ⟨_, _, ?_, pure_returns.mpr ⟨rfl, rfl⟩⟩
  refine bind_returns.mpr ⟨_, _, updateJob_found hid hset htenant hjob, ?_⟩
  exact bind_returns.mpr ⟨(), _, pure_returns.mpr ⟨rfl, rfl⟩, pure_returns.mpr ⟨rfl, rfl⟩⟩

theorem write_missing (hid : Spelled server jobId) (hset : server.setting changes = .ok changes)
    (hjob : db.job? jobId = none) :
    transaction (do pure (some (← write server jobId changes []))) [] db =
      (.error (.keyError jobId), db) := by
  apply transaction_raises (x := .opened db [])
  refine bind_raises.mpr (.inl ?_)
  exact bind_raises.mpr (.inr ⟨none, _, updateJob_missing hid hset hjob, rfl⟩)

end Writes

section Moments

variable {s : System} {clock : Nat}

/-- An update raises the same error in both stores, or does the same to both. -/
theorem update_together (h : Agree s) {jobId : String} {changes : Changes}
    (hid : Spelled server jobId) (hset : server.setting changes = .ok changes)
    (htenant : Untenanted changes) :
    let file := s.store.update jobId changes clock
    let row := transaction (do pure (some (← write server jobId changes []))) [] (s.atTime clock)
    hear (file.1.map some) = hear row.1 ∧ Agree ⟨file.2, row.2⟩ := by
  have hviews := h.views jobId
  cases hfind : s.store.find jobId with
  | none =>
      have hjob : (s.atTime clock).job? jobId = none := by
        rw [hfind] at hviews
        exact Option.map_eq_none_iff.mp hviews.symm
      rw [write_missing hid hset hjob]
      have hfile : s.store.update jobId changes clock =
          (.error (.keyError jobId), s.store.remember jobId) := by
        simp [FileJobStore.update, hfind]
      rw [hfile]
      refine ⟨rfl, ⟨?_, h.labelled.2⟩, ?_⟩
      · refine labelled_update h.labelled.1 fun r hr => ?_
        exact jobId_of_find h.labelled.1 h.labelled.2 hr
      · intro other
        rw [find_remember]
        exact h.views other
  | some record =>
      have hrecord : record.jobId = jobId := jobId_of_find h.labelled.1 h.labelled.2 hfind
      obtain ⟨row, hjob, hview⟩ : ∃ row, (s.atTime clock).job? jobId = some row ∧
          view record = view row := by
        rw [hfind, Option.map_some] at hviews
        obtain ⟨row, hrow, hview⟩ := Option.map_eq_some_iff.mp hviews.symm
        exact ⟨row, hrow, hview.symm⟩
      rw [write_found hid hset htenant hjob]
      have hfile : s.store.update jobId changes clock = (.ok (record.changed changes clock),
          (s.store.remember jobId).write (record.changed changes clock)) := by
        simp [FileJobStore.update, hfind]
      rw [hfile]
      have hsame := view_changed hview changes clock (s.atTime clock).clock
      refine ⟨by simp [hear, Except.map, hsame], ⟨?_, ?_⟩, ?_⟩
      · apply labelled_update
        · refine labelled_update h.labelled.1 fun r hr => ?_
          exact jobId_of_find h.labelled.1 h.labelled.2 hr
        · rintro _ ⟨⟩
          rfl
      · apply labelled_update h.labelled.2
        rintro _ ⟨⟩
        rfl
      · intro other
        show (FileJobStore.find _ other).map view = _
        rw [find_write, find_remember, jobId_changed, hrecord, job?_changed]
        split
        · rename_i heq
          rw [heq, hjob, Option.map_some, Option.map_some, Option.map_some, hsame]
        · exact h.views other

theorem create_together (h : Agree s) {job : NewJob} (hplain : Plain server s (.create job)) :
    hear (fromFiles s ⟨clock, .create job⟩) = hear (fromPostgres server s ⟨clock, .create job⟩) ∧
      Agree ⟨(inFiles s.store clock (.create job)).2,
        (transaction (inPostgres server clock (.create job)) [] (s.atTime clock)).2⟩ := by
  obtain ⟨hheld, htext, hid, htenant, hproject, hknown⟩ := hplain
  have hrow := row_of_plain htext hid htenant hproject
  have hlabelled : Labelled (s.store.write (job.record clock)).memory ∧
      Labelled (s.store.write (job.record clock)).files := by
    constructor
    · apply labelled_update h.labelled.1
      rintro _ ⟨⟩
      rfl
    · apply labelled_update h.labelled.2
      rintro _ ⟨⟩
      rfl
  obtain ⟨after, hafter, hviews⟩ : ∃ after : JobDb,
      Returns (insertJob server job) (.opened (s.atTime clock) []) () (.opened after []) ∧
        ∀ other, (after.job? other).map view = if other = job.jobId then
          some (view (job.record clock)) else (s.db.job? other).map view := by
    cases hinsert : (s.atTime clock).jobs.insert (job.record clock) with
    | none =>
        refine ⟨s.atTime clock, returns_statement ?_, ?_⟩
        · have hconflict : (s.atTime clock).jobs.insert (job.record (s.atTime clock).clock) =
              none := hinsert
          simp [hrow, hconflict, bind, Except.bind]
        · intro other
          split
          · rename_i heq
            obtain ⟨row, hjob⟩ := job?_of_conflict hinsert
            have hviews := h.views job.jobId
            have hjob' : s.db.job? job.jobId = some row := hjob
            rw [hjob'] at hviews
            obtain ⟨record, hfind, hview⟩ := Option.map_eq_some_iff.mp hviews
            have hfresh := view_of_untouched (hheld record hfind) clock
            rw [heq, show (s.atTime clock).job? job.jobId = some row from hjob, Option.map_some,
              ← hview, hfresh]
          · rfl
    | some jobs =>
        refine ⟨{ s.atTime clock with jobs := jobs }, returns_statement ?_, ?_⟩
        · have hfree : (s.atTime clock).jobs.insert (job.record (s.atTime clock).clock) =
              some jobs := hinsert
          simp [hrow, hfree, hknown, bind, Except.bind]
        · intro other
          rw [job?_insert hinsert, jobId_record]
          split <;> rfl
  have hrun : transaction (inPostgres server clock (.create job)) [] (s.atTime clock) =
      (.ok (some (job.record clock)), after) := by
    apply transaction_of_returns
    refine bind_returns.mpr ⟨job.record clock, _, ?_, pure_returns.mpr ⟨rfl, rfl⟩⟩
    exact bind_returns.mpr ⟨(), _, hafter, pure_returns.mpr ⟨rfl, rfl⟩⟩
  unfold fromPostgres
  rw [hrun]
  refine ⟨rfl, hlabelled, ?_⟩
  intro other
  rw [hviews]
  show (FileJobStore.find (s.store.write (job.record clock)) other).map view = _
  rw [find_write, jobId_record]
  split
  · rfl
  · exact h.views other

theorem get_together (h : Agree s) {jobId : String} {tenantId : Option String}
    (hid : Spelled server jobId) (htenant : ∀ tenant ∈ tenantId, Spelled server tenant) :
    hear (fromFiles s ⟨clock, .get jobId tenantId⟩) =
        hear (fromPostgres server s ⟨clock, .get jobId tenantId⟩) ∧
      Agree ⟨(inFiles s.store clock (.get jobId tenantId)).2,
        (transaction (inPostgres server clock (.get jobId tenantId)) [] (s.atTime clock)).2⟩ := by
  have hrun : transaction (inPostgres server clock (.get jobId tenantId)) [] (s.atTime clock) =
      (.ok (owned (s.db.job? jobId) tenantId), s.atTime clock) := by
    apply transaction_of_returns
    apply returns_statement
    simp only [readId_of_spelled hid, readIds_of_spelled htenant]
    rfl
  unfold fromPostgres
  rw [hrun]
  refine ⟨?_, ⟨?_, h.labelled.2⟩, ?_⟩
  · have hviews := h.views jobId
    show Heard.returned ((owned (s.store.find jobId) tenantId).map view) =
      .returned ((owned (s.db.job? jobId) tenantId).map view)
    rw [owned_views hviews]
  · refine labelled_update h.labelled.1 fun r hr => ?_
    exact jobId_of_find h.labelled.1 h.labelled.2 hr
  · intro other
    show (FileJobStore.find (s.store.remember jobId) other).map view = _
    rw [find_remember]
    exact h.views other

end Moments

end Servers

section Runs

variable {server : Server} {s : System}

/-- At a plain call the two stores answer alike, and agree afterwards. -/
theorem together (h : Agree s) {label : Label} (hplain : Plain server s label.call) :
    Alike server s label ∧
      Agree ⟨(inFiles s.store label.clock label.call).2,
        (transaction (inPostgres server label.clock label.call) []
          (s.atTime label.clock)).2⟩ := by
  rcases label with ⟨clock, call⟩
  cases call with
  | create job => exact create_together h hplain
  | markRunning jobId => exact update_together h hplain setting_running ⟨rfl, rfl⟩
  | complete jobId result =>
      obtain ⟨hid, hdocument, hderive⟩ := hplain
      exact update_together h hid (setting_complete hdocument hderive) ⟨rfl, rfl⟩
  | fail jobId error =>
      obtain ⟨hid, htext⟩ := hplain
      exact update_together h hid (setting_fail htext) ⟨rfl, rfl⟩
  | get jobId tenantId =>
      obtain ⟨hid, htenant⟩ := hplain
      exact get_together h hid htenant

theorem agree_initial : Agree System.initial := by
  refine ⟨⟨?_, ?_⟩, fun _ => rfl⟩
  · intro jobId r hr
    contradiction
  · intro jobId r hr
    contradiction

theorem agree_of_run {past : List (System × Label)}
    (run : Run (step server) System.initial past s)
    (h : ∀ moment ∈ past, Plain server moment.1 moment.2.call) : Agree s := by
  refine run.invariant_of (fun s label => Plain server s label.call) h Agree agree_initial ?_
  intro s label s' hagree hplain hstep
  cases hstep
  exact (together hagree hplain).2

end Runs

/-- A server that reads these texts as they are. -/
def plainServer : Server where
  takesText text := !text.toList.contains (Char.ofNat 0)
  takesDocument _ := true
  uuid text := some text
  isTenant tenant := tenant = "7f000000-0000-4000-8000-00000000000a"
  isProject _ := false
  derive _ := .ok ()

/-- A crawl of a tenant, until it is done. -/
def crawl : NewJob where
  jobId := "0c000000-0000-4000-8000-00000000000c"
  subject := "https://shop.ir"
  tenantId := some "7f000000-0000-4000-8000-00000000000a"

def finishedCrawl : List Label :=
  [⟨0, .create crawl⟩, ⟨1, .markRunning crawl.jobId⟩,
   ⟨2, .complete crawl.jobId [("overall_score", .int 80)]⟩,
   ⟨3, .get crawl.jobId crawl.tenantId⟩, ⟨4, .get crawl.jobId (some "another")⟩,
   ⟨5, .fail "another" "no such job"⟩]

/-- The request of a finished crawl is delivered again. -/
def requestedAgain : List Label :=
  [⟨0, .create crawl⟩, ⟨1, .markRunning crawl.jobId⟩,
   ⟨2, .complete crawl.jobId [("overall_score", .int 80)]⟩,
   ⟨3, .create crawl⟩, ⟨4, .get crawl.jobId none⟩]

def statusHeard : Heard → Option JobStatus
  | .returned found => found.map View.status
  | _ => none

end SeoPlatform.Shared.Interchange

