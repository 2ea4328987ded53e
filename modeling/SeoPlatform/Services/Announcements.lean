import SeoPlatform.InternalLinks.OrphanLists
import SeoPlatform.Services.AckedJobs
import SeoPlatform.Services.Competitor
import SeoPlatform.Services.Completions
import SeoPlatform.Services.Content
import SeoPlatform.Services.Crawl
import SeoPlatform.Services.Keyword
import SeoPlatform.Services.Links
import SeoPlatform.Services.Optimizer
import SeoPlatform.Services.Serp

namespace SeoPlatform.Services.Announcements

open SeoPlatform.Crawler.Models
open SeoPlatform.Engine.AuditReport
open SeoPlatform.Foundation.ExceptFlow
open SeoPlatform.Foundation.JsonValue
open SeoPlatform.Foundation.SqlTransaction
open SeoPlatform.Foundation.UrlText
open SeoPlatform.InternalLinks.Building (Reader pageRows)
open SeoPlatform.InternalLinks.OrphanLists (pageRows_toDict)
open SeoPlatform.InternalLinks.Reported (plainReader)
open SeoPlatform.Services.AckedJobs (openServer)
open SeoPlatform.Services.Completions
open SeoPlatform.Services.Links (CrawlReport)
open SeoPlatform.Services.Runs
open SeoPlatform.Shared.Contracts
open SeoPlatform.Shared.Events
open SeoPlatform.Shared.Exceptions
open SeoPlatform.Shared.Jobs
open SeoPlatform.Shared.JobSpecs
open SeoPlatform.Shared.PostgresStore
open SeoPlatform.Shared.Text (Unicode plainUnicode)

section Kinds

/-- The machine that the services run on: its square root, its hashes and texts, and the
order in which it goes through a set. -/
structure Machine where
  sqrt : Rat → Rat
  uuid5 : String → String
  reader : Reader
  unicode : Unicode
  isDigit : Char → Bool
  repr : Rat → String
  setOrder : List String → List String

inductive JobKind where
  | crawl
  | keywordStudy
  | rankCheck
  | linkAnalysis
  | contentAnalysis
  | rewritePlan
  | comparison
  deriving DecidableEq, Repr

/-- The service that does the jobs of a kind. -/
def JobKind.service (machine : Machine) : JobKind → Service
  | .crawl => Crawl.service machine.sqrt machine.reader.rules machine.uuid5
  | .keywordStudy => Keyword.service machine.reader.rules machine.unicode
  | .rankCheck => Serp.service machine.reader.rules
  | .linkAnalysis => Links.service machine.setOrder machine.repr machine.reader
  | .contentAnalysis => Content.service machine.reader machine.unicode
  | .rewritePlan => Optimizer.service machine.reader machine.isDigit machine.unicode
  | .comparison => Competitor.service machine.reader machine.unicode

/-- What the engine reports of a crawl, a link analysis may be fed. -/
def crawlReport (rules : TextRules) (report : Report) : CrawlReport where
  fields := report.toDict rules
  depths := by
    intro rows hrows row hrow
    rw [pageRows_toDict] at hrows
    cases hrows
    obtain ⟨page, -, rfl⟩ := List.mem_map.mp hrow
    exact ⟨page.depth, rfl⟩

end Kinds

section Rows

/-- The events of a type that wait in the outbox. -/
def announced (type : EventType) (db : JobDb) : List OutboxRow :=
  db.outbox.rows.filter fun row => row.eventType = type

variable {outbox : Outbox} {subject : Subject} {type : EventType}

theorem filter_stageAll_of_others {events : List PendingEvent}
    (h : ∀ event ∈ events, event.type ≠ type) :
    ((stageAll outbox subject events).rows.filter fun row => row.eventType = type) =
      outbox.rows.filter fun row => row.eventType = type := by
  induction events generalizing outbox with
  | nil => rfl
  | cons event rest ih =>
      rw [List.forall_mem_cons] at h
      have hrest := @ih (stage outbox event subject) h.2
      rw [show stageAll outbox subject (event :: rest) =
        stageAll (stage outbox event subject) subject rest from rfl, hrest]
      rcases rows_stage outbox event subject with hsame | hadded
      · rw [hsame]
      · have hother : (stagedRow event subject).eventType ≠ type := h.1
        rw [hadded, List.filter_append, List.filter_singleton, decide_eq_false hother]
        exact List.append_nil _

/-- Of events of which only the first is of a type, one row of the type is staged. -/
theorem filter_stageAll {first : PendingEvent} {rest : List PendingEvent}
    (hfresh : ∀ row ∈ outbox.rows, row.eventId ≠ first.eventId) (htype : first.type = type)
    (hrest : ∀ event ∈ rest, event.type ≠ type) :
    ((stageAll outbox subject (first :: rest)).rows.filter fun row => row.eventType = type) =
      (outbox.rows.filter fun row => row.eventType = type) ++ [stagedRow first subject] := by
  have hown : (stagedRow first subject).eventType = type := htype
  calc
    _ = (stage outbox first subject).rows.filter fun row => row.eventType = type :=
      filter_stageAll_of_others hrest
    _ = _ := by
      rw [rows_stage_of_fresh hfresh, List.filter_append, List.filter_singleton,
        decide_eq_true hown]
      rfl

end Rows

section Endings

variable {service : Service} {server : Server} {jobId : String} {request : service.Request}
  {given : Except String service.Material} {correlationId causationId : Option String}
  {ids : Nat → String} {db db' : JobDb} {record : JobRecord}

/-- A job that has ended is announced once more, and as it ended. -/
theorem announced_once (h : Ended server jobId (statusOf (resultOf service.work request given))
      (service.staged jobId request (resultOf service.work request given) correlationId
        causationId ids) db record db')
    (hfresh : ∀ row ∈ db.outbox.rows, row.eventId ≠ ids 0) :
    ∃ row, announced service.completed db' = announced service.completed db ++ [row] ∧
      Announces service server record row := by
  let last := completion service jobId request (resultOf service.work request given) correlationId
    causationId ids
  obtain ⟨rest, hstaged, hother⟩ : ∃ rest, service.staged jobId request
      (resultOf service.work request given) correlationId causationId ids = last :: rest ∧
        ∀ event ∈ rest, event.type ≠ service.completed := staged_eq_cons given
  refine ⟨stagedRow last ⟨record.jobId, record.tenantId, record.projectId⟩, ?_,
    announces_completion h.status h.named⟩
  unfold announced
  rw [h.outbox, hstaged]
  exact filter_stageAll hfresh rfl hother

end Endings

/-- The completion of a job keeps the contract of its type, however the job ended, and the
transaction that ends the job announces it once, with its id and its status. -/
theorem ended_job_announced (machine : Machine) (kind : JobKind) (server : Server)
    (jobId : String) (request : (kind.service machine).Request)
    (given : Except String (kind.service machine).Material)
    (correlationId causationId : Option String) (ids : Nat → String) :
    let service := kind.service machine
    let result := resultOf service.work request given
    Valid service.completed (service.payload jobId request result) ∧
      ∀ faults db record db',
        transaction (service.finish server jobId request result correlationId causationId ids)
          faults db = (.ok record, db') →
        (∀ row ∈ db.outbox.rows, row.eventId ≠ ids 0) →
        db'.job? record.jobId = some record ∧ record.status = statusOf result ∧
          ∃ row, announced service.completed db' = announced service.completed db ++ [row] ∧
            Announces service server record row := by
  intro service result
  refine ⟨service.payload_valid jobId request given, ?_⟩
  intro faults db record db' hrun hfresh
  rcases transaction_meets (finish_meets result) (finish_clean result) faults db with
    ⟨e, hraised⟩ | ⟨record', after, hdone, hended⟩
  · rw [hrun] at hraised
    cases hraised
  · rw [hrun] at hdone
    cases hdone
    refine ⟨?_, hended.status, announced_once hended hfresh⟩
    rw [hended.rows, if_pos rfl]

section Village

def plainMachine : Machine where
  sqrt x := x
  uuid5 text := text
  reader := plainReader
  unicode := plainUnicode
  isDigit := isDigit
  repr _ := ""
  setOrder urls := urls

def deepPage : PageData where
  url := "https://a.ir/deep"
  statusCode := 200
  contentType := "text/html"
  depth := 3

/-- The report of a crawl that found one page, three clicks deep. -/
def deepReport : Report where
  site := { startUrl := "https://a.ir/", pages := [deepPage] }
  issues := []
  overallScore := 100
  categoryScores := []
  generatedAt := ""

def runningJob : JobRecord where
  jobId := "l1"
  subject := "c1"
  status := .running
  createdAt := 0
  updatedAt := 0

def runningDb : JobDb where
  jobs := ⟨[runningJob], List.pairwise_singleton _ _⟩
  outbox := .empty
  clock := 5

def analysis : Service := JobKind.linkAnalysis.service plainMachine

/-- What the analysis of the crawl comes to. -/
def analysed : Except String analysis.Report :=
  resultOf analysis.work "c1" (.ok (crawlReport plainReader.rules deepReport))

/-- The analysis of the page is announced as completed. -/
theorem ended_job_announced_deepReport :
    ∃ record db', transaction (analysis.finish openServer "l1" "c1" analysed none none
        fun _ => "event") [] runningDb = (.ok record, db') ∧
      record.status = .completed ∧ ∃ row, announced .linksAnalyzed db' = [row] ∧
        Announces analysis openServer record row := by
  have hran : (transaction (analysis.finish openServer "l1" "c1" analysed none none
      fun _ => "event") [] runningDb).1.isOk = true := by decide +kernel
  obtain ⟨record, hrecord⟩ := ok_of_isOk hran
  have hcompleted : statusOf analysed = .completed := by decide +kernel
  have hnone : ∀ row ∈ runningDb.outbox.rows, row.eventId ≠ "event" := List.forall_mem_nil _
  obtain ⟨-, hstatus, row, hrow, hannounces⟩ := (ended_job_announced plainMachine .linkAnalysis
    openServer "l1" "c1" (.ok (crawlReport plainReader.rules deepReport)) none none
      fun _ => "event").2 [] runningDb record _ (Prod.ext hrecord rfl) hnone
  exact ⟨record, _, Prod.ext hrecord rfl, hstatus.trans hcompleted, row, hrow, hannounces⟩

end Village

end SeoPlatform.Services.Announcements
