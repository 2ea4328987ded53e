import SeoPlatform.Orchestrator.Isolation

namespace SeoPlatform.Orchestrator.Reads

open SeoPlatform.Foundation.JsonValue
open SeoPlatform.Foundation.ConstrainedTable
open SeoPlatform.Foundation.SqlTransaction
open SeoPlatform.Foundation.TransitionSystem
open SeoPlatform.Foundation.TwoRuns
open SeoPlatform.Orchestrator.Planner
open SeoPlatform.Orchestrator.Store
open SeoPlatform.Orchestrator.StoreSpecs
open SeoPlatform.Orchestrator.Engine
open SeoPlatform.Orchestrator.Snapshots
open SeoPlatform.Orchestrator.Workers
open SeoPlatform.Orchestrator.Refinement
open SeoPlatform.Orchestrator.OwnRows
open SeoPlatform.Orchestrator.OwnTransactions
open SeoPlatform.Orchestrator.Interleavings
open SeoPlatform.Orchestrator.Isolation
open SeoPlatform.Shared.Exceptions

section Documents

/-- The direction of a report, where it has one. -/
def trendCounts (report : Dict) : Except Exn Json := do
  let trend ← asDict ((Dict.get report "trend").orElse (.obj []))
  if (Dict.get trend "changes").truthy then do
    let better ← lengthOf ((Dict.get trend "better").orElse (.arr []))
    let worse ← lengthOf ((Dict.get trend "worse").orElse (.arr []))
    .ok (.obj [("better", .int better), ("worse", .int worse)])
  else .ok .null

def stepSummary (s : Step) : Json :=
  .obj [("position", .int s.position), ("kind", .str s.kind.name), ("job_id", .str s.jobId),
    ("status", .str s.status.name)]

/-- `Workflow.summary`, what a list of audits needs. -/
def summary (env : Env) (workflow : Workflow) : Except Exn Dict := do
  let report := workflow.report.getD []
  let trend ← trendCounts report
  let headline ← asDict ((Dict.get report "headline").orElse (.obj []))
  .ok [("workflow_id", .str workflow.workflowId), ("goal", .str workflow.goal),
    ("status", .str workflow.status.name), ("error", .ofOption .str workflow.error),
    ("created_at", .str (env.iso workflow.createdAt)),
    ("updated_at", .str (env.iso workflow.updatedAt)),
    ("start_url", .ofOption .str workflow.inputs.startUrl),
    ("overall_score", Dict.get headline "overall_score"), ("trend", trend),
    ("steps", .arr ((byPosition workflow.steps).map stepSummary))]

/-- `Step.to_dict`. -/
def stepDict (s : Step) : Json :=
  .obj [("position", .int s.position), ("kind", .str s.kind.name), ("job_id", .str s.jobId),
    ("status", .str s.status.name), ("error", .ofOption .str s.error),
    ("result", .ofOption .obj s.result), ("params", .obj s.params)]

/-- `Workflow.to_dict`. -/
def toDict (env : Env) (workflow : Workflow) : Except Exn Dict := do
  let short ← summary env workflow
  let inputs := Dict.set short "inputs" (.obj workflow.inputs.toDict)
  let report := Dict.set inputs "report" (.ofOption .obj workflow.report)
  .ok (Dict.set report "steps" (.arr ((byPosition workflow.steps).map stepDict)))

end Documents

section Queries

/-- `ORDER BY created_at DESC`. -/
def newest (rows : List WorkflowRow) : List WorkflowRow :=
  rows.insertionSort fun a b => b.createdAt ≤ a.createdAt

/-- `LIMIT`, which the server takes as a bigint and refuses below zero. -/
def limited {α : Type} (limit : Int) (rows : List α) : Except Exn (List α) :=
  if 2 ^ 63 ≤ limit then .error (.database "NumericValueOutOfRange" "bigint out of range")
  else if limit < 0 then
    .error (.database "InvalidRowCountInLimitClause" "LIMIT must not be negative")
  else .ok (rows.take limit.toNat)

/-- A `SELECT` of the newest rows that meet a condition. -/
def selectNewest (keep : WorkflowRow → Bool) (limit : Int) : StoreTx (List WorkflowRow) :=
  statement fun db => (limited limit (newest (db.workflows.rows.filter keep))).map (·, db)

def get (workflowId : String) (tenantId : Option String) : StoreTx (Option Workflow) := do
  let workflow ← load workflowId
  match tenantId with
  | none => pure workflow
  | some _ => pure (workflow.filter fun w => w.tenantId = tenantId)

def loadAll : List String → StoreTx (List Workflow)
  | [] => pure []
  | workflowId :: rest => do
      let workflow ← load workflowId
      let others ← loadAll rest
      pure (workflow.toList ++ others)

def recent (limit : Int) (tenantId : Option String) : StoreTx (List Workflow) := do
  let rows ← selectNewest (fun r => tenantId.all fun t => r.tenantId = some t) limit
  loadAll (rows.map WorkflowRow.id)

def historyEntry (env : Env) (r : WorkflowRow) : Json :=
  .obj [("workflow_id", .str r.id), ("started_at", .str (env.iso r.createdAt)),
    ("finished_at", .str (env.iso r.updatedAt)),
    ("headline", (Dict.get (r.report.getD []) "headline").orElse (.obj []))]

/-- The same site's finished audits, newest first. -/
def history (env : Env) (workflow : Workflow) (limit : Int) : StoreTx (List Json) :=
  match workflow.inputs.startUrl with
  | none => pure []
  | some startUrl =>
      if startUrl = "" then pure []
      else do
        let rows ← selectNewest (fun r => r.goal = workflow.goal ∧ r.status = .completed ∧
          r.tenantId = workflow.tenantId ∧ r.inputs.startUrl = some startUrl) limit
        pure (rows.map (historyEntry env))

end Queries

section Endpoints

/-- A read of the API. -/
inductive Request where
  | get (workflowId : String)
  | list (limit : Int)
  | history (workflowId : String) (limit : Int)

inductive Answer where
  | ok (body : Json)
  | notFound (detail : String)

/-- Missing and not yours are the same answer. -/
def missing : Answer := .notFound "workflow not found"

def getWorkflow (env : Env) (workflowId : String) (tenantId : Option String) :
    StoreTx Answer := do
  match ← get workflowId tenantId with
  | none => pure missing
  | some workflow =>
      let body ← fromExcept (toDict env workflow)
      pure (.ok (.obj body))

def listWorkflows (env : Env) (limit : Int) (tenantId : Option String) : StoreTx Answer := do
  let workflows ← recent limit tenantId
  let bodies ← fromExcept (workflows.mapM (summary env))
  pure (.ok (.arr (bodies.map .obj)))

def workflowHistory (env : Env) (workflowId : String) (limit : Int) (tenantId : Option String) :
    StoreTx Answer := do
  match ← get workflowId tenantId with
  | none => pure missing
  | some workflow =>
      let runs ← history env workflow (max 1 (min limit 100))
      pure (.ok (.obj
        [("start_url", .ofOption .str workflow.inputs.startUrl), ("runs", .arr runs)]))

/-- A read for a caller's tenant, which the gateway passes on. -/
def serve (env : Env) (tenantId : Option String) : Request → StoreTx Answer
  | .get workflowId => getWorkflow env workflowId tenantId
  | .list limit => listWorkflows env limit tenantId
  | .history workflowId limit => workflowHistory env workflowId limit tenantId

/-- What a caller gets from a server that answers every statement. -/
def answerOf (env : Env) (tenantId : Option String) (request : Request) (db : Db) :
    Except Exn Answer :=
  (transaction (serve env tenantId request) [] db).1

end Endpoints

variable {env : Env} {tenant : Option String} {mine : String → Bool} {s s' : Db}
variable {workflowId : String}

section OwnReads

theorem mem_newest {rows : List WorkflowRow} {r : WorkflowRow} : r ∈ newest rows ↔ r ∈ rows :=
  (List.perm_insertionSort _ rows).mem_iff

/-- A selection of rows of the tenant finds what it finds among the tenant's rows. -/
theorem selectNewest_follows {keep : WorkflowRow → Bool} (limit : Int)
    (hkeep : ∀ r, keep r = true → r.tenantId = tenant) :
    Follows (Mirrors tenant mine none) (selectNewest keep limit) (selectNewest keep limit)
      (Same fun rows => ∀ r ∈ rows, mine r.id = true) := by
  refine statement_follows fun s s' h => ?_
  have hrows : s'.workflows.rows.filter keep = s.workflows.rows.filter keep := by
    rw [h.own]
    simp only [ownRows, rows_delete_not]
    rw [List.filter_filter]
    refine List.filter_congr fun r hr => ?_
    by_cases hkept : keep r = true
    · simp [hkept, (h.sorted r hr).mp (hkeep r hkept)]
    · simp [hkept]
  rw [hrows]
  unfold limited
  split
  · exact .error _
  split
  · exact .error _
  refine .ok ⟨⟨rfl, fun r hr => ?_⟩, h⟩
  obtain ⟨hmem, hkept⟩ := List.mem_filter.mp (mem_newest.mp (List.mem_of_mem_take hr))
  exact (h.sorted r hmem).mp (hkeep r hkept)

theorem loadAll_follows (ids : List String) (hids : ∀ id ∈ ids, mine id = true) :
    Follows (Mirrors tenant mine none) (loadAll ids) (loadAll ids) (Same fun _ => True) := by
  induction ids with
  | nil => exact pure_follows ⟨rfl, trivial⟩
  | cons id rest ih =>
      obtain ⟨hid, hrest⟩ := List.forall_mem_cons.mp hids
      refine bind_follows (load_follows hid) ?_
      rintro _ workflow ⟨rfl, -⟩
      refine bind_follows (ih hrest) ?_
      rintro _ others ⟨rfl, -⟩
      exact pure_follows ⟨rfl, trivial⟩

theorem listWorkflows_follows (t : String) (limit : Int) :
    Follows (Mirrors (some t) mine none) (listWorkflows env limit (some t))
      (listWorkflows env limit (some t)) (Same fun _ => True) := by
  have hrecent : Follows (Mirrors (some t) mine none) (recent limit (some t))
      (recent limit (some t)) (Same fun _ => True) := by
    refine bind_follows (selectNewest_follows limit fun r hr => by simpa using hr) ?_
    rintro _ rows ⟨rfl, hmine⟩
    refine loadAll_follows _ fun id hid => ?_
    obtain ⟨r, hr, rfl⟩ := List.mem_map.mp hid
    exact hmine r hr
  refine bind_follows hrecent ?_
  rintro _ workflows ⟨rfl, -⟩
  refine bind_follows (fromExcept_follows (agrees_same _)) ?_
  rintro _ bodies ⟨rfl, -⟩
  exact pure_follows ⟨rfl, trivial⟩

theorem get_follows (t : String) (hmine : mine workflowId = true) :
    Follows (Mirrors (some t) mine none) (get workflowId (some t)) (get workflowId (some t))
      (Same fun found => ∀ w ∈ found, Own (some t) workflowId w) := by
  refine bind_follows (load_follows hmine) ?_
  rintro _ found ⟨rfl, hown⟩
  refine pure_follows ⟨rfl, fun w hw => hown w ?_⟩
  exact (Option.filter_eq_some_iff.mp hw).1

theorem history_follows {w : Workflow} (hown : Own tenant workflowId w) (limit : Int) :
    Follows (Mirrors tenant mine none) (history env w limit) (history env w limit)
      (Same fun _ => True) := by
  unfold history
  cases w.inputs.startUrl with
  | none => exact pure_follows ⟨rfl, trivial⟩
  | some startUrl =>
      dsimp only
      split
      · exact pure_follows ⟨rfl, trivial⟩
      · refine bind_follows (selectNewest_follows limit fun r hr => ?_) ?_
        · exact (of_decide_eq_true hr).2.2.1.trans hown.tenant
        · rintro _ rows ⟨rfl, -⟩
          exact pure_follows ⟨rfl, trivial⟩

theorem getWorkflow_follows (t : String) (hmine : mine workflowId = true) :
    Follows (Mirrors (some t) mine none) (getWorkflow env workflowId (some t))
      (getWorkflow env workflowId (some t)) (Same fun _ => True) := by
  refine bind_follows (get_follows t hmine) ?_
  rintro _ found ⟨rfl, -⟩
  cases found with
  | none => exact pure_follows ⟨rfl, trivial⟩
  | some w =>
      refine bind_follows (fromExcept_follows (agrees_same _)) ?_
      rintro _ body ⟨rfl, -⟩
      exact pure_follows ⟨rfl, trivial⟩

theorem workflowHistory_follows (t : String) (hmine : mine workflowId = true) (limit : Int) :
    Follows (Mirrors (some t) mine none) (workflowHistory env workflowId limit (some t))
      (workflowHistory env workflowId limit (some t)) (Same fun _ => True) := by
  refine bind_follows (get_follows t hmine) ?_
  rintro _ found ⟨rfl, hown⟩
  cases found with
  | none => exact pure_follows ⟨rfl, trivial⟩
  | some w =>
      refine bind_follows (history_follows (hown w rfl) _) ?_
      rintro _ runs ⟨rfl, -⟩
      exact pure_follows ⟨rfl, trivial⟩

end OwnReads

section Answers

theorem load_returns (db : Db) (workflowId : String) :
    Returns (load workflowId) (.opened db []) (snapshot db workflowId) (.opened db []) := by
  refine bind_returns.mpr ⟨db.workflow? workflowId, .opened db [], returns_statement rfl, ?_⟩
  unfold snapshot
  cases db.workflow? workflowId with
  | none => exact pure_returns.mpr ⟨rfl, rfl⟩
  | some row =>
      exact bind_returns.mpr ⟨db.stepsOf workflowId, .opened db [], returns_statement rfl,
        pure_returns.mpr ⟨rfl, rfl⟩⟩

/-- A workflow of somebody else's is not there. -/
theorem get_returns_of_other {db : Db} {t : String}
    (h : ∀ w, snapshot db workflowId = some w → w.tenantId ≠ some t) :
    Returns (get workflowId (some t)) (.opened db []) none (.opened db []) := by
  refine bind_returns.mpr ⟨_, _, load_returns db workflowId, pure_returns.mpr ⟨?_, rfl⟩⟩
  cases hfound : snapshot db workflowId with
  | none => rfl
  | some w => simp [Option.filter_some, h w hfound]

/-- The identifiers under which the tables hold a tenant's workflows. -/
def idsOf (tenant : Option String) (db : Db) (workflowId : String) : Bool :=
  db.workflows.rows.any fun row => row.id = workflowId ∧ row.tenantId = tenant

theorem sorted_idsOf (tenant : Option String) (db : Db) : Sorted tenant (idsOf tenant db) db := by
  intro r hr
  constructor
  · intro htenant
    exact List.any_eq_true.mpr ⟨r, hr, decide_eq_true ⟨rfl, htenant⟩⟩
  · intro hmine
    obtain ⟨other, hother, hmeets⟩ := List.any_eq_true.mp hmine
    obtain ⟨hid, htenant⟩ := of_decide_eq_true hmeets
    rw [← eq_of_id hother hr hid]
    exact htenant

theorem mirrors_tenantRows (tenant : Option String) (db : Db) :
    Mirrors tenant (idsOf tenant db) none db (tenantRows tenant db) where
  own := by
    refine ext_db ?_ rfl rfl rfl
    simp only [ownRows, tenantRows, rows_delete_not]
    refine List.filter_congr fun r hr => ?_
    rw [Bool.eq_iff_iff, decide_eq_true_iff]
    exact sorted_idsOf tenant db r hr
  sorted := sorted_idsOf tenant db
  claimed := by simp

theorem answerOf_eq_of_follows {t : String} {db : Db} {request : Request}
    (h : Follows (Mirrors (some t) (idsOf (some t) db) none) (serve env (some t) request)
      (serve env (some t) request) (Same fun _ => True)) :
    answerOf env (some t) request (tenantRows (some t) db) =
      answerOf env (some t) request db := by
  have hvalues := (transaction_follows h [] (mirrors_tenantRows (some t) db)).1
  unfold answerOf
  generalize (transaction (serve env (some t) request) [] db).1 = r at hvalues ⊢
  generalize (transaction (serve env (some t) request) [] (tenantRows (some t) db)).1 = r'
    at hvalues ⊢
  cases hvalues with
  | ok hsame => rw [hsame.1]
  | error e => rfl

/-- What is asked about a workflow that is not the tenant's is answered as if it were not
there. -/
theorem answerOf_of_other {t : String} {db : Db} {request : Request}
    (hrequest : request = .get workflowId ∨ ∃ limit, request = .history workflowId limit)
    (h : ∀ w, snapshot db workflowId = some w → w.tenantId ≠ some t) :
    answerOf env (some t) request db = .ok missing := by
  have hserved : Returns (serve env (some t) request) (.opened db []) missing (.opened db []) := by
    rcases hrequest with rfl | ⟨limit, rfl⟩ <;>
      exact bind_returns.mpr ⟨_, _, get_returns_of_other h, pure_returns.mpr ⟨rfl, rfl⟩⟩
  unfold answerOf
  rw [transaction_of_returns hserved]

theorem other_of_idsOf {t : String} {db : Db} (h : idsOf (some t) db workflowId = false) :
    ∀ w, snapshot db workflowId = some w → w.tenantId ≠ some t := by
  intro w hw htenant
  obtain ⟨row, hrow, hid, rfl⟩ := snapshot_eq_some.mp hw
  have hmine : idsOf (some t) db workflowId = true :=
    List.any_eq_true.mpr ⟨row, hrow, decide_eq_true ⟨hid, htenant⟩⟩
  rw [h] at hmine
  contradiction

theorem none_of_idsOf {t : String} {db : Db} (h : idsOf (some t) db workflowId = false) :
    ∀ w, snapshot (tenantRows (some t) db) workflowId = some w → w.tenantId ≠ some t := by
  intro w hw htenant
  obtain ⟨row, hrow, hid, rfl⟩ := snapshot_eq_some.mp hw
  have hmine : idsOf (some t) db workflowId = true :=
    List.any_eq_true.mpr ⟨row, (Table.mem_delete.mp hrow).1, decide_eq_true ⟨hid, htenant⟩⟩
  rw [h] at hmine
  contradiction

/-- A read for a tenant reads the tenant's rows and no others. -/
theorem answerOf_tenantRows (t : String) (request : Request) (db : Db) :
    answerOf env (some t) request (tenantRows (some t) db) =
      answerOf env (some t) request db := by
  cases request with
  | list limit => exact answerOf_eq_of_follows (listWorkflows_follows t limit)
  | get workflowId =>
      cases hmine : idsOf (some t) db workflowId with
      | true => exact answerOf_eq_of_follows (getWorkflow_follows t hmine)
      | false =>
          rw [answerOf_of_other (.inl rfl) (none_of_idsOf hmine),
            answerOf_of_other (.inl rfl) (other_of_idsOf hmine)]
  | history workflowId limit =>
      cases hmine : idsOf (some t) db workflowId with
      | true => exact answerOf_eq_of_follows (workflowHistory_follows t hmine limit)
      | false =>
          rw [answerOf_of_other (.inr ⟨limit, rfl⟩) (none_of_idsOf hmine),
            answerOf_of_other (.inr ⟨limit, rfl⟩) (other_of_idsOf hmine)]

end Answers

/-- What a tenant reads after any run it reads after a run in which nobody else asked for
anything. -/
theorem reads_alone {t : String} {past : List (System × Label)} {s : System}
    (run : Run (step env) System.initial past s)
    (hapart : ∀ moment ∈ past, Apart (some t) mine moment.1 moment.2) :
    ∃ own p, AloneRun env (some t) past s own p ∧
      ∀ request, answerOf env (some t) request s.db = answerOf env (some t) request p.db := by
  obtain ⟨own, p, halone⟩ := tenant_alone run hapart
  refine ⟨own, p, halone, fun request => ?_⟩
  rw [halone.rows, answerOf_tenantRows]

theorem reads_alone_of_two :
    ∃ past s, past.map Prod.snd = twoTenants ∧
      s.db.workflows.rows.map WorkflowRow.id = ["w", "v"] ∧
      ∃ own p, AloneRun asciiEnv (some "t") past s own p ∧
        ∀ request, answerOf asciiEnv (some "t") request s.db =
          answerOf asciiEnv (some "t") request p.db := by
  obtain ⟨past, s, hlabels, run, hapart, hids⟩ := apart_twoTenants
  exact ⟨past, s, hlabels, hids, reads_alone run hapart⟩

end SeoPlatform.Orchestrator.Reads
