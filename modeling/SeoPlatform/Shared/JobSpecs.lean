import SeoPlatform.Shared.PostgresStore

namespace SeoPlatform.Shared.JobSpecs

open SeoPlatform.Foundation.JsonValue
open SeoPlatform.Foundation.ConstrainedTable
open SeoPlatform.Foundation.SqlTransaction
open SeoPlatform.Shared.Exceptions
open SeoPlatform.Shared.Events
open SeoPlatform.Shared.Jobs
open SeoPlatform.Shared.PostgresStore

variable {server : Server} {db db' : JobDb} {jobId : String}

def stageAll (outbox : Outbox) (subject : Subject) (events : List PendingEvent) : Outbox :=
  events.foldl (fun outbox event => stage outbox event subject) outbox

/-- A row after events were staged was there before, or is that of one of them. -/
theorem mem_stageAll {outbox : Outbox} {subject : Subject} {events : List PendingEvent}
    {row : OutboxRow} (h : row ∈ (stageAll outbox subject events).rows) :
    row ∈ outbox.rows ∨ ∃ event ∈ events, row = stagedRow event subject := by
  induction events generalizing outbox with
  | nil => exact .inl h
  | cons event rest ih =>
      rcases ih h with hold | ⟨later, hlater, rfl⟩
      · change row ∈ (stage outbox event subject).rows at hold
        rcases rows_stage outbox event subject with hsame | hadded
        · exact .inl (hsame ▸ hold)
        · rw [hadded] at hold
          rcases List.mem_append.mp hold with hold | hnew
          · exact .inl hold
          · exact .inr ⟨event, List.mem_cons_self, List.mem_singleton.mp hnew⟩
      · exact .inr ⟨later, List.mem_cons_of_mem _ hlater, rfl⟩

theorem subset_stageAll {outbox : Outbox} {subject : Subject} (events : List PendingEvent)
    {row : OutboxRow} (h : row ∈ outbox.rows) : row ∈ (stageAll outbox subject events).rows := by
  induction events generalizing outbox with
  | nil => exact h
  | cons event rest ih =>
      apply ih
      change row ∈ (stage outbox event subject).rows
      rcases rows_stage outbox event subject with hsame | hadded
      · rwa [hsame]
      · rw [hadded]
        exact List.mem_append_left _ h

/-- The rows that new events become. -/
theorem rows_stageAll_of_fresh {outbox : Outbox} {subject : Subject} {events : List PendingEvent}
    (hdistinct : (events.map (·.eventId)).Nodup)
    (hfresh : ∀ event ∈ events, ∀ row ∈ outbox.rows, row.eventId ≠ event.eventId) :
    (stageAll outbox subject events).rows =
      outbox.rows ++ events.map fun event => stagedRow event subject := by
  induction events generalizing outbox with
  | nil => simp [stageAll]
  | cons event rest ih =>
      rw [List.map_cons, List.nodup_cons] at hdistinct
      have hfirst : (stage outbox event subject).rows = outbox.rows ++ [stagedRow event subject] :=
        rows_stage_of_fresh (hfresh event List.mem_cons_self)
      have hrest : (stageAll (stage outbox event subject) subject rest).rows =
          (stage outbox event subject).rows ++ rest.map fun event => stagedRow event subject := by
        apply ih hdistinct.2
        intro later hlater row hrow
        rw [hfirst] at hrow
        rcases List.mem_append.mp hrow with hold | hnew
        · exact hfresh later (List.mem_cons_of_mem _ hlater) row hold
        · obtain rfl := List.mem_singleton.mp hnew
          intro hsame
          exact hdistinct.1 (List.mem_map.mpr ⟨later, hlater, hsame.symm⟩)
      rw [hfirst] at hrest
      simpa [stageAll] using hrest

theorem setting_keeps {changes set : Changes} (h : server.setting changes = .ok set) :
    set.status = changes.status ∧ (changes.tenantId = none → set.tenantId = none) ∧
      (changes.projectId = none → set.projectId = none) := by
  unfold Server.setting at h
  simp only [bind, Except.bind] at h
  repeat' split at h
  all_goals first
    | contradiction
    | (obtain rfl := Except.ok.inj h; exact ⟨rfl, fun hnone => by simp [hnone],
        fun hnone => by simp [hnone]⟩)

theorem get_meets : Meets (get server jobId none) fun db found db' =>
    db' = db ∧ ∃ id, server.readId jobId = .ok id ∧ found = db.job? id := by
  refine (statement_meets _).mono ?_
  intro db found db' h
  cases hid : server.readId jobId with
  | error e => simp [hid, bind, Except.bind] at h
  | ok id =>
      simp only [hid, Server.readIds, bind, Except.bind, Except.ok.injEq, Prod.mk.injEq] at h
      exact ⟨h.2.symm, id, rfl, h.1.symm⟩

/-- The rows as an INSERT leaves them. -/
def Inserted (server : Server) (job : NewJob) (db db' : JobDb) : Prop :=
  ∃ row, server.row job = .ok row ∧
    ((db.jobs.insert (row.record db.clock) = none ∧ db' = db) ∨
      ∃ jobs, db.jobs.insert (row.record db.clock) = some jobs ∧ db' = { db with jobs := jobs })

theorem insertJob_meets (job : NewJob) :
    Meets (insertJob server job) fun db _ db' => Inserted server job db db' := by
  refine (statement_meets _).mono ?_
  intro db found db' h
  cases hrow : server.row job with
  | error e => simp [hrow, bind, Except.bind] at h
  | ok row =>
      refine ⟨row, hrow, ?_⟩
      simp only [hrow, bind, Except.bind] at h
      split at h
      · rename_i hinsert
        obtain ⟨-, rfl⟩ := Prod.mk.inj (Except.ok.inj h)
        exact Or.inl ⟨hinsert, rfl⟩
      · rename_i jobs hinsert
        split at h
        · obtain ⟨-, rfl⟩ := Prod.mk.inj (Except.ok.inj h)
          exact Or.inr ⟨jobs, hinsert, rfl⟩
        · contradiction

theorem create_meets (job : NewJob) (now : Nat) :
    Meets (create server job now) fun db _ db' => Inserted server job db db' := by
  refine (bind_meets (insertJob_meets job) fun _ => pure_meets _).mono ?_
  rintro db record db' ⟨-, db₁, hinserted, -, rfl⟩
  exact hinserted

theorem stageEvents_meets (subject : Subject) (events : List PendingEvent) :
    Meets (stageEvents server subject events) fun db _ db' =>
      db' = { db with outbox := stageAll db.outbox subject events } := by
  induction events with
  | nil => exact (pure_meets _).mono fun db _ db' h => h.2
  | cons event rest ih =>
      refine (bind_meets (statement_meets _) fun _ => ih).mono ?_
      rintro db _ db' ⟨_, db₁, hstage, rfl⟩
      cases hdocument : server.checkDocument (some event.payload) with
      | error e => simp [hdocument, bind, Except.bind] at hstage
      | ok _ =>
          simp only [hdocument, bind, Except.bind, Except.ok.injEq, Prod.mk.injEq] at hstage
          rw [← hstage.2]
          rfl

/-- The rows as an UPDATE leaves them. -/
def Updated (server : Server) (jobId : String) (changes : Changes) (db : JobDb)
    (record : JobRecord) (db' : JobDb) : Prop :=
  ∃ id set, server.readId jobId = .ok id ∧ server.setting changes = .ok set ∧
    (db.changed id set).job? id = some record ∧ db' = db.changed id set

theorem updateJob_meets (changes : Changes) :
    Meets (updateJob server jobId changes) fun db found db' =>
      (found = none ∧ db' = db) ∨
        ∃ record, found = some record ∧ Updated server jobId changes db record db' := by
  refine (statement_meets _).mono ?_
  intro db found db' h
  cases hid : server.readId jobId with
  | error e => simp [hid, bind, Except.bind] at h
  | ok id =>
      cases hset : server.setting changes with
      | error e => simp [hid, hset, bind, Except.bind] at h
      | ok set =>
          simp only [hid, hset, bind, Except.bind] at h
          split at h
          · obtain ⟨rfl, rfl⟩ := Prod.mk.inj (Except.ok.inj h)
            exact Or.inl ⟨rfl, rfl⟩
          · rename_i record hrecord
            split at h
            · obtain ⟨rfl, rfl⟩ := Prod.mk.inj (Except.ok.inj h)
              exact Or.inr ⟨record, rfl, id, set, hid, hset, hrecord, rfl⟩
            · contradiction

/-- What `_write` commits, as one relation. -/
def Written (server : Server) (jobId : String) (changes : Changes) (events : List PendingEvent)
    (db : JobDb) (record : JobRecord) (db' : JobDb) : Prop :=
  ∃ updated, Updated server jobId changes db record updated ∧
    db' = { updated with
      outbox := stageAll db.outbox ⟨record.jobId, record.tenantId, record.projectId⟩ events }

theorem write_meets (changes : Changes) (events : List PendingEvent) :
    Meets (write server jobId changes events) (Written server jobId changes events) := by
  refine (bind_meets (updateJob_meets changes)
    (S := fun found db₁ record db' => ∃ r, found = some r ∧ record = r ∧
      db' = { db₁ with
        outbox := stageAll db₁.outbox ⟨r.jobId, r.tenantId, r.projectId⟩ events })
    fun found => ?_).mono ?_
  · cases found with
    | none => exact throw_meets _ _
    | some r =>
        refine (bind_meets (stageEvents_meets _ _) fun _ => pure_meets _).mono ?_
        rintro db₁ record db' ⟨_, db₂, rfl, rfl, rfl⟩
        exact ⟨record, rfl, rfl, rfl⟩
  · rintro db record db' ⟨found, db₁, ⟨rfl, -⟩ | ⟨r, rfl, hupdated⟩, r', hr, hrecord, rfl⟩
    · contradiction
    · obtain rfl := Option.some.inj hr
      subst hrecord
      refine ⟨db₁, hupdated, ?_⟩
      obtain ⟨id, set, -, -, -, rfl⟩ := hupdated
      rfl

theorem get_clean : Clean (get server jobId none) := (statement_firm _).clean

theorem create_clean (job : NewJob) (now : Nat) : Clean (create server job now) :=
  bind_clean (statement_firm _).clean fun _ => pure_clean _

theorem stageEvents_clean (subject : Subject) (events : List PendingEvent) :
    Clean (stageEvents server subject events) := by
  induction events with
  | nil => exact pure_clean _
  | cons event rest ih => exact bind_clean (statement_firm _).clean fun _ => ih

theorem write_clean (changes : Changes) (events : List PendingEvent) :
    Clean (write server jobId changes events) := by
  refine bind_clean (statement_firm _).clean fun found => ?_
  cases found with
  | none => exact (throw_firm _).clean
  | some record => exact bind_clean (stageEvents_clean _ _) fun _ => pure_clean _

section Rows

variable {record : JobRecord} {changes : Changes} {events : List PendingEvent}

theorem job?_of_no_conflict {jobs : Table JobRecord SameJob}
    (h : db.jobs.insert record = some jobs) : db.job? record.jobId = none := by
  obtain ⟨hapart, -⟩ := Table.insert_eq_some.mp h
  apply List.find?_eq_none.mpr
  intro old hold hsame
  exact hapart old hold (of_decide_eq_true hsame)

/-- An INSERT adds a queued row, or leaves the rows as they are. -/
theorem job?_of_inserted {job : NewJob} (h : Inserted server job db db') (other : String) :
    (∃ row, server.row job = .ok row ∧ db'.job? row.jobId ≠ none) ∧
      (db'.job? other = db.job? other ∨ ∃ row, server.row job = .ok row ∧
        other = row.jobId ∧ db.job? other = none ∧
        db'.job? other = some (row.record db.clock)) := by
  obtain ⟨row, hrow, ⟨hconflict, rfl⟩ | ⟨jobs, hinsert, rfl⟩⟩ := h
  · obtain ⟨old, hold⟩ := job?_of_conflict hconflict
    refine ⟨⟨row, hrow, ?_⟩, Or.inl rfl⟩
    rw [jobId_record] at hold
    simp [hold]
  · have hafter := job?_insert hinsert
    rw [jobId_record] at hafter
    refine ⟨⟨row, hrow, ?_⟩, ?_⟩
    · rw [hafter, if_pos rfl]
      simp
    · by_cases hother : other = row.jobId
      · refine Or.inr ⟨row, hrow, hother, ?_, by rw [hafter, if_pos hother]⟩
        rw [hother]
        exact job?_of_no_conflict hinsert
      · refine Or.inl ?_
        rw [hafter, if_neg hother]

theorem outbox_of_inserted {job : NewJob} (h : Inserted server job db db') :
    db'.outbox = db.outbox := by
  obtain ⟨row, -, ⟨-, rfl⟩ | ⟨jobs, -, rfl⟩⟩ := h <;> rfl

/-- What a write makes of the rows: only the row of its job is changed. -/
theorem job?_of_written (h : Written server jobId changes events db record db') :
    ∃ set old, server.readId jobId = .ok record.jobId ∧ server.setting changes = .ok set ∧
      db.job? record.jobId = some old ∧ record = old.changed set db.clock ∧
      ∀ other, db'.job? other = if other = record.jobId then some record else db.job? other := by
  obtain ⟨_, ⟨id, set, hid, hset, hrecord, rfl⟩, rfl⟩ := h
  obtain rfl := jobId_of_job? hrecord
  have hchanged : ∀ other, (db.changed record.jobId set).job? other =
      if other = record.jobId then (db.job? other).map fun r => r.changed set db.clock
      else db.job? other := job?_changed set
  have hself := (hchanged record.jobId).symm.trans hrecord
  rw [if_pos rfl] at hself
  obtain ⟨old, hold, hnew⟩ := Option.map_eq_some_iff.mp hself
  refine ⟨set, old, hid, hset, hold, hnew.symm, ?_⟩
  intro other
  refine (hchanged other).trans ?_
  split
  · rename_i hother
    rw [hother, hself]
  · rfl

theorem outbox_of_written (h : Written server jobId changes events db record db') :
    db'.outbox = stageAll db.outbox ⟨record.jobId, record.tenantId, record.projectId⟩ events := by
  obtain ⟨_, -, rfl⟩ := h
  rfl

end Rows

end SeoPlatform.Shared.JobSpecs
