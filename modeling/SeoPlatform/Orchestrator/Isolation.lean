import SeoPlatform.Orchestrator.OwnHandlers

namespace SeoPlatform.Orchestrator.Isolation

open SeoPlatform.Foundation.ConstrainedTable
open SeoPlatform.Foundation.TransitionSystem
open SeoPlatform.Orchestrator.Store
open SeoPlatform.Orchestrator.Engine
open SeoPlatform.Orchestrator.Snapshots
open SeoPlatform.Orchestrator.Workers
open SeoPlatform.Orchestrator.Changes
open SeoPlatform.Orchestrator.HandlerOutcomes
open SeoPlatform.Orchestrator.Soundness
open SeoPlatform.Orchestrator.Interleavings
open SeoPlatform.Orchestrator.OwnRows
open SeoPlatform.Orchestrator.OwnHandlers
open SeoPlatform.Shared.Contracts
open SeoPlatform.Shared.Events

/-- The identifiers that arrive at a moment are kept apart between the tenant and the others. -/
def Apart (tenant : Option String) (mine : String → Bool) (s : System) : Label → Prop
  | .submit _ r => r.tenantId = tenant ↔ mine r.workflowId = true
  | .run n choice => ∀ e stage, At s n e stage → ArrivesApart tenant mine s.db choice e stage
  | .deliver _ _ | .crash _ | .tick => True

/-- A label of a run in which nobody but the tenant asks for anything. -/
def AskedBy (tenant : Option String) : Label → Prop
  | .deliver _ e => e.type = .workflowRequested → e.tenantId = tenant
  | .submit _ r => r.tenantId = tenant
  | .run _ _ | .crash _ | .tick => True

def isCrash : Label → Bool
  | .crash _ => true
  | _ => false

/-- The second system is the first one as the tenant alone would have it. -/
structure Alone (tenant : Option String) (mine : String → Bool) (s p : System) : Prop where
  tables : Mirrors tenant mine none s.db p.db
  jobs : ∀ n, (p.workers n).job =
    (s.workers n).job.filter fun j => works tenant mine j.1 j.2
  fits : ∀ n e stage, At s n e stage → Fit tenant mine stage
  locks : ∀ l ∈ p.locks, l ∈ s.locks ∧ mine l = true

/-- What the second system does while the first one takes a step. -/
structure Moves (env : Env) (tenant : Option String) (label : Label) (p p' : System)
    (past : List (System × Label)) : Prop where
  run : Run (step env) p past p'
  asked : ∀ moment ∈ past, AskedBy tenant moment.2
  kept : ((past.map Prod.snd).filter fun l => !isCrash l).Sublist [label]

variable {env : Env} {tenant : Option String} {mine : String → Bool} {s s' p p' : System} {n : Nat}

/-- Both systems move one worker. -/
theorem alone_of_move (h : Alone tenant mine s p) (htables : Mirrors tenant mine none s'.db p'.db)
    (hothers : ∀ m ≠ n, (s'.workers m).job = (s.workers m).job)
    (hothers' : ∀ m ≠ n, (p'.workers m).job = (p.workers m).job)
    (hjob : (p'.workers n).job =
      (s'.workers n).job.filter fun j => works tenant mine j.1 j.2)
    (hfit : ∀ e stage, At s' n e stage → Fit tenant mine stage)
    (hlocks : ∀ l ∈ p'.locks, l ∈ s'.locks ∧ mine l = true) : Alone tenant mine s' p' where
  tables := htables
  jobs m := by
    by_cases hm : m = n
    · rw [hm]
      exact hjob
    · rw [hothers m hm, hothers' m hm]
      exact h.jobs m
  fits m e stage hat := by
    by_cases hm : m = n
    · subst hm
      exact hfit e stage hat
    · refine h.fits m e stage ?_
      unfold At at hat ⊢
      rwa [hothers m hm] at hat
  locks := hlocks

theorem moves_nothing (label : Label) : Moves env tenant label p p [] where
  run := .refl
  asked _ hmem := absurd hmem List.not_mem_nil
  kept := List.nil_sublist _

theorem moves_one {label : Label} (hstep : step env p label = some p')
    (hasked : AskedBy tenant label) : Moves env tenant label p p' [(p, label)] where
  run := .single hstep
  asked moment hmem := by
    rw [List.mem_singleton.mp hmem]
    exact hasked
  kept := List.filter_sublist

theorem job_setWorker_of_ne (w : Worker) {m : Nat} (h : m ≠ n) :
    ((s.setWorker n w).workers m).job = (s.workers m).job :=
  congrArg Worker.job (setWorker_of_ne s w h)

/-- The worker the first system leaves without work has none in the second. -/
theorem idle_alone (h : Alone tenant mine s p) (hjob : (s.workers n).job = none) :
    (p.workers n).job = none := by
  rw [h.jobs, hjob]
  rfl

theorem alone_submit {r : StartRequest} (h : Alone tenant mine s p)
    (hapart : r.tenantId = tenant ↔ mine r.workflowId = true)
    (hstep : submit s n r = some s') :
    ∃ p' past, Moves env tenant (.submit n r) p p' past ∧ Alone tenant mine s' p' := by
  unfold submit at hstep
  cases hjob : (s.workers n).job with
  | some _ => simp [hjob] at hstep
  | none =>
      rw [hjob] at hstep
      obtain rfl := Option.some.inj hstep
      have hfit : ∀ e stage, At (s.setWorker n
          { (s.workers n) with job := some (none, .creating r) }) n e stage →
          Fit tenant mine stage := by
        intro e stage hat
        cases job_of_setWorker hat
        exact hapart
      by_cases htenant : r.tenantId = tenant
      · refine ⟨p.setWorker n { (p.workers n) with job := some (none, .creating r) },
          [(p, .submit n r)], moves_one ?_ htenant, ?_⟩
        · simp [step, submit, idle_alone h hjob]
        · refine alone_of_move h h.tables (fun m hm => job_setWorker_of_ne _ hm)
            (fun m hm => job_setWorker_of_ne _ hm) ?_ hfit h.locks
          simp [setWorker_self, Option.filter_some, works, htenant]
      · refine ⟨p, [], moves_nothing _, ?_⟩
        refine alone_of_move h h.tables (fun m hm => job_setWorker_of_ne _ hm)
          (fun _ _ => rfl) ?_ hfit h.locks
        simp [setWorker_self, idle_alone h hjob, Option.filter_some, works, htenant]

theorem crash_of_idle (hjob : (p.workers n).job = none) :
    crash p n = p.setWorker n { job := none, seen := [] } := by
  unfold crash
  rw [hjob]

variable (env) in
/-- A message the second system takes, on a worker that has just been started. -/
theorem moves_deliver {e : Envelope} {stage : Stage} (hjob : (p.workers n).job = none)
    (hentry : entry e.type = some stage) (hasked : AskedBy tenant (.deliver n e)) :
    ∃ past, Moves env tenant (.deliver n e) p
      (p.setWorker n { job := some (some e, stage), seen := [] }) past := by
  have hdelivered : step env (crash p n) (.deliver n e) =
      some (p.setWorker n { job := some (some e, stage), seen := [] }) := by
    rw [crash_of_idle hjob]
    simp only [step, deliver, setWorker_self, List.not_mem_nil, if_false, hentry]
    refine congrArg some ?_
    unfold System.setWorker
    simp only [System.mk.injEq, true_and, and_true]
    funext m
    by_cases hm : m = n <;> simp [hm]
  have hcrashed : step env p (.crash n) = some (crash p n) := rfl
  refine ⟨[(p, .crash n), (crash p n, .deliver n e)],
    (Run.refl.snoc hcrashed).snoc hdelivered, ?_, ?_⟩
  · intro moment hmem
    rcases List.mem_cons.mp hmem with rfl | hmem
    · trivial
    · rw [List.mem_singleton.mp hmem]
      exact hasked
  · exact List.Sublist.refl _

theorem alone_deliver {e : Envelope} (h : Alone tenant mine s p)
    (hstep : deliver s n e = some s') :
    ∃ p' past, Moves env tenant (.deliver n e) p p' past ∧ Alone tenant mine s' p' := by
  unfold deliver at hstep
  cases hjob : (s.workers n).job with
  | some _ => simp [hjob] at hstep
  | none =>
      rw [hjob] at hstep
      dsimp only at hstep
      split at hstep
      · obtain rfl := Option.some.inj hstep
        exact ⟨p, [], moves_nothing _, h.tables, h.jobs, h.fits, h.locks⟩
      cases hentry : entry e.type with
      | none =>
          rw [hentry] at hstep
          obtain rfl := Option.some.inj hstep
          refine ⟨p, [], moves_nothing _, ?_⟩
          refine alone_of_move h h.tables (fun m hm => job_setWorker_of_ne _ hm)
            (fun _ _ => rfl) ?_ (fun e' stage hat => ?_) h.locks
          · rw [idle_alone h hjob]
            simp [settle, System.ack, setWorker_self]
          · exact absurd (job_of_setWorker (s := s) hat) (by simp)
      | some stage =>
          rw [hentry] at hstep
          obtain rfl := Option.some.inj hstep
          have hfit : ∀ e' stage', At (s.setWorker n
              { (s.workers n) with job := some (some e, stage) }) n e' stage' →
              Fit tenant mine stage' := by
            intro e' stage' hat
            cases job_of_setWorker hat
            rcases entry_cases hentry with ⟨-, rfl⟩ | rfl | ⟨-, rfl⟩ <;> trivial
          cases hworks : works tenant mine (some e) stage with
          | true =>
              have hasked : AskedBy tenant (.deliver n e) := by
                intro htype
                rw [htype] at hentry
                cases hentry
                exact of_decide_eq_true hworks
              obtain ⟨past, hmoves⟩ := moves_deliver env (idle_alone h hjob) hentry hasked
              refine ⟨_, past, hmoves, ?_⟩
              refine alone_of_move h h.tables (fun m hm => job_setWorker_of_ne _ hm)
                (fun m hm => job_setWorker_of_ne _ hm) ?_ hfit h.locks
              simp [setWorker_self, Option.filter_some, hworks]
          | false =>
              refine ⟨p, [], moves_nothing _, ?_⟩
              refine alone_of_move h h.tables (fun m hm => job_setWorker_of_ne _ hm)
                (fun _ _ => rfl) ?_ hfit h.locks
              simp [setWorker_self, idle_alone h hjob, Option.filter_some, hworks]

/-- A lock held for somebody else is on somebody else's workflow. -/
theorem held_of_foreign {e : Option Envelope} {stage : Stage}
    (h : works tenant mine e stage = false) {l : String} (hl : l ∈ stage.held) :
    mine l = false := by
  unfold Stage.held at hl
  split at hl
  · rw [List.mem_singleton.mp hl]
    exact h
  · exact absurd hl List.not_mem_nil

theorem held_of_own {e : Option Envelope} {stage : Stage}
    (h : works tenant mine e stage = true) {l : String} (hl : l ∈ stage.held) : mine l = true := by
  unfold Stage.held at hl
  split at hl
  · rw [List.mem_singleton.mp hl]
    exact h
  · exact absurd hl List.not_mem_nil

theorem locks_release_own (h : Alone tenant mine s p) (stage : Stage) :
    ∀ l ∈ (p.release stage).locks, l ∈ (s.release stage).locks ∧ mine l = true := by
  intro l hl
  obtain ⟨hmem, hfree⟩ := List.mem_filter.mp hl
  exact ⟨List.mem_filter.mpr ⟨(h.locks l hmem).1, hfree⟩, (h.locks l hmem).2⟩

theorem locks_release_foreign (h : Alone tenant mine s p) {e : Option Envelope} {stage : Stage}
    (hforeign : works tenant mine e stage = false) :
    ∀ l ∈ p.locks, l ∈ (s.release stage).locks ∧ mine l = true := by
  intro l hl
  obtain ⟨hmem, hmine⟩ := h.locks l hl
  refine ⟨List.mem_filter.mpr ⟨hmem, decide_eq_true fun hheld => ?_⟩, hmine⟩
  rw [held_of_foreign hforeign hheld] at hmine
  contradiction

theorem job_alone (h : Alone tenant mine s p) {e : Option Envelope} {stage : Stage}
    (hjob : (s.workers n).job = some (e, stage)) :
    (p.workers n).job = if works tenant mine e stage then some (e, stage) else none := by
  rw [h.jobs, hjob, Option.filter_some]

theorem alone_crash (h : Alone tenant mine s p) :
    Alone tenant mine (crash s n) (crash p n) := by
  have hidle : ∀ (t : System) (e : Option Envelope) (stage : Stage),
      ¬ At (t.setWorker n { job := none, seen := [] }) n e stage :=
    fun t e stage hat => absurd (job_of_setWorker hat) (by simp)
  have hmove : ∀ {d d' : System}, Mirrors tenant mine none d.db d'.db →
      d.workers = s.workers → d'.workers = p.workers →
      (∀ l ∈ d'.locks, l ∈ d.locks ∧ mine l = true) →
      Alone tenant mine (d.setWorker n { job := none, seen := [] })
        (d'.setWorker n { job := none, seen := [] }) := by
    intro d d' htables hworkers hworkers' hlocks
    refine alone_of_move h htables (fun m hm => ?_) (fun m hm => ?_) ?_
      (fun e stage hat => absurd hat (hidle d e stage)) hlocks
    · rw [job_setWorker_of_ne _ hm, hworkers]
    · rw [job_setWorker_of_ne _ hm, hworkers']
    · simp [setWorker_self]
  cases hjob : (s.workers n).job with
  | none =>
      rw [crash_of_idle hjob, crash_of_idle (idle_alone h hjob)]
      exact hmove h.tables rfl rfl h.locks
  | some job =>
      rcases job with ⟨e, stage⟩
      have hjob' := job_alone h hjob
      cases hworks : works tenant mine e stage with
      | true =>
          rw [hworks, if_pos rfl] at hjob'
          unfold crash
          rw [hjob, hjob']
          exact hmove h.tables rfl rfl (locks_release_own h stage)
      | false =>
          rw [hworks, if_neg Bool.false_ne_true] at hjob'
          rw [crash_of_idle hjob']
          unfold crash
          rw [hjob]
          exact hmove h.tables rfl rfl (locks_release_foreign h hworks)

theorem settle_job (s : System) (n : Nat) (w : Worker) (e : Option Envelope) (next : Next) :
    ((settle s n w e next).workers n).job = nextJob e next := by
  cases next <;> simp [settle, System.acquire, System.ack, setWorker_self, nextJob]

/-- The locks after a worker settled: the ones before, and those of its new stage. -/
theorem mem_settle_locks {w : Worker} {e : Option Envelope} {next : Next} {l : String} :
    l ∈ (settle s n w e next).locks ↔
      l ∈ s.locks ∨ ∃ stage, next = .goto stage ∧ l ∈ stage.held := by
  cases next with
  | goto stage => simp [settle, System.acquire, System.setWorker, or_comm]
  | returned | raised => simp [settle, System.ack, System.setWorker]

theorem goto_of_goesOn {e : Option Envelope} {next next' : Next} {stage : Stage}
    (h : GoesOn tenant mine e next next') (hnext' : next' = .goto stage) :
    next = .goto stage ∧ works tenant mine e stage = true := by
  subst hnext'
  unfold GoesOn at h
  cases next with
  | goto other =>
      by_cases hworks : works tenant mine e other = true
      · simp only [nextJob, Option.filter_some, hworks, if_true, Option.some.injEq,
          Prod.mk.injEq, true_and] at h
        subst h
        exact ⟨rfl, hworks⟩
      · simp [nextJob, Option.filter_some, hworks] at h
  | returned | raised => simp [nextJob] at h

/-- What may run in the first system may run in the second. -/
theorem runStep_alone {choice : Choice} (h : Alone tenant mine s p) {e : Option Envelope}
    {stage : Stage} (hjob : (p.workers n).job = some (e, stage))
    (hblocked : ¬ (stage.waitsFor.any (· ∈ s.locks)) = true)
    (hfresh : stage.drawsEventId = true → freshEventId s.db choice.eventId = true) :
    runStep env p n choice = some (settle
      { p.release stage with db := (handlerStep env p.db e choice stage).2 } n (p.workers n) e
      (handlerStep env p.db e choice stage).1) := by
  have hfree : ¬ (stage.waitsFor.any (· ∈ p.locks)) = true := by
    intro hany
    obtain ⟨l, hl, hlocked⟩ := List.any_eq_true.mp hany
    exact hblocked (List.any_eq_true.mpr
      ⟨l, hl, decide_eq_true (h.locks l (of_decide_eq_true hlocked)).1⟩)
  have hnew : ¬ (stage.drawsEventId && !freshEventId p.db choice.eventId) = true := by
    cases hdraws : stage.drawsEventId with
    | false => simp
    | true =>
        have hall := List.all_eq_true.mp (hfresh hdraws)
        have hall' : freshEventId p.db choice.eventId = true := by
          refine List.all_eq_true.mpr fun o ho => hall o ?_
          rw [h.tables.own] at ho
          exact (Table.mem_delete.mp ho).1
        simp [hall']
  unfold runStep
  rw [hjob]
  dsimp only
  rw [if_neg hfree, if_neg hnew]

theorem alone_run {choice : Choice} (hsound : Sound .any s) (h : Alone tenant mine s p)
    (hapart : Apart tenant mine s (.run n choice)) (hstep : runStep env s n choice = some s') :
    ∃ p' past, Moves env tenant (.run n choice) p p' past ∧ Alone tenant mine s' p' := by
  unfold runStep at hstep
  cases hjob : (s.workers n).job with
  | none => simp [hjob] at hstep
  | some job =>
      rcases job with ⟨e, stage⟩
      simp only [hjob] at hstep
      split at hstep
      · contradiction
      rename_i hblocked
      split at hstep
      · contradiction
      rename_i hdraws
      obtain rfl := Option.some.inj hstep
      have hfresh : stage.drawsEventId = true → freshEventId s.db choice.eventId = true := by
        simpa using hdraws
      have hat : At s n e stage := hjob
      have houtcome := outcome_of_handlerStep env s.db e choice stage
      have hjob' := job_alone h hjob
      have hfit : ∀ e' stage', At (settle
          { s.release stage with db := (handlerStep env s.db e choice stage).2 } n (s.workers n) e
          (handlerStep env s.db e choice stage).1) n e' stage' → Fit tenant mine stage' := by
        intro e' stage' hat'
        exact fit_of_outcome h.tables.sorted (hapart e stage hat) houtcome (settle_at hat').2
      have hothers : ∀ m ≠ n, ((settle
          { s.release stage with db := (handlerStep env s.db e choice stage).2 } n (s.workers n) e
          (handlerStep env s.db e choice stage).1).workers m).job = (s.workers m).job :=
        fun m hm => congrArg Worker.job (settle_of_ne _ _ _ _ hm)
      cases hworks : works tenant mine e stage with
      | false =>
          rw [hworks, if_neg Bool.false_ne_true] at hjob'
          obtain ⟨huntouched, hleft⟩ := foreign_of_outcome h.tables.sorted
            (h.fits n e stage hat) (hsound.stageOk n e stage hat) hworks houtcome
          refine ⟨p, [], moves_nothing _, alone_of_move h ?_ hothers (fun _ _ => rfl) ?_ hfit ?_⟩
          · rw [settle_db]
            exact ⟨h.tables.own.trans huntouched.rows.symm, huntouched.sorted, by simp⟩
          · rw [settle_job, hjob']
            exact goesOn_of_left hleft (show nextJob e .raised = none from rfl)
          · intro l hl
            obtain ⟨hmem, hmine⟩ := locks_release_foreign h hworks l hl
            exact ⟨mem_settle_locks.mpr (.inl hmem), hmine⟩
      | true =>
          rw [hworks, if_pos rfl] at hjob'
          have htogether := handlerStep_together env h.tables (h.fits n e stage hat)
            (hsound.stageOk n e stage hat) (hapart e stage hat) hfresh hworks
          refine ⟨_, _, moves_one (runStep_alone h hjob' hblocked hfresh) trivial, ?_⟩
          refine alone_of_move h ?_ hothers
            (fun m hm => congrArg Worker.job (settle_of_ne _ _ _ _ hm)) ?_ hfit ?_
          · rw [settle_db, settle_db]
            exact htogether.tables
          · rw [settle_job, settle_job]
            exact htogether.goesOn
          · intro l hl
            rcases mem_settle_locks.mp hl with hold | ⟨stage', hnext, hheld⟩
            · obtain ⟨hmem, hmine⟩ := locks_release_own h stage l hold
              exact ⟨mem_settle_locks.mpr (.inl hmem), hmine⟩
            · obtain ⟨hgoto, hown⟩ := goto_of_goesOn htogether.goesOn hnext
              exact ⟨mem_settle_locks.mpr (.inr ⟨stage', hgoto, hheld⟩), held_of_own hown hheld⟩

/-- A step of the whole system is one of the tenant's alone, or none. -/
theorem alone_step {label : Label} (hsound : Sound .any s) (h : Alone tenant mine s p)
    (hapart : Apart tenant mine s label) (hstep : step env s label = some s') :
    ∃ p' past, Moves env tenant label p p' past ∧ Alone tenant mine s' p' := by
  cases label with
  | deliver n e => exact alone_deliver h hstep
  | submit n r => exact alone_submit h hapart hstep
  | run n choice => exact alone_run hsound h hapart hstep
  | crash n =>
      obtain rfl := Option.some.inj hstep
      have hcrashed : step env p (.crash n) = some (crash p n) := rfl
      exact ⟨_, _, moves_one hcrashed trivial, alone_crash h⟩
  | tick =>
      obtain rfl := Option.some.inj hstep
      have hticked : step env p .tick =
          some { p with db := { p.db with clock := p.db.clock + 1 } } := rfl
      refine ⟨_, _, moves_one hticked trivial, ⟨?_, h.tables.sorted, by simp⟩, h.jobs, h.fits,
        h.locks⟩
      rw [h.tables.own]
      rfl

theorem alone_initial : Alone tenant mine System.initial System.initial where
  tables := ⟨rfl, by simp [Sorted, System.initial, Db.empty], by simp⟩
  jobs _ := rfl
  fits _ _ _ hat := by simp [At, System.initial] at hat
  locks _ hl := absurd hl List.not_mem_nil

/-- A tenant's rows: its workflows, their steps, and the events staged for it. -/
def tenantRows (tenant : Option String) (db : Db) : Db where
  workflows := db.workflows.delete fun r => !decide (r.tenantId = tenant)
  steps := db.steps.delete fun r =>
    !db.workflows.rows.any fun row => row.id = r.workflowId ∧ row.tenantId = tenant
  outbox := db.outbox.delete fun o => !decide (o.tenantId = tenant)
  clock := db.clock

/-- Where identifiers are kept apart they tell the tenant's rows. -/
theorem ownRows_eq_tenantRows {db : Db} (hsorted : Sorted tenant mine db)
    (howned : ∀ r ∈ db.steps.rows, ∃ row ∈ db.workflows.rows, row.id = r.workflowId) :
    ownRows tenant mine db = tenantRows tenant db := by
  refine ext_db ?_ ?_ rfl rfl
  · simp only [ownRows, tenantRows, rows_delete_not]
    refine List.filter_congr fun r hr => ?_
    rw [Bool.eq_iff_iff, decide_eq_true_iff]
    exact (hsorted r hr).symm
  · simp only [ownRows, tenantRows, rows_delete_not]
    refine List.filter_congr fun r hr => ?_
    obtain ⟨row, hrow, hid⟩ := howned r hr
    rw [Bool.eq_iff_iff, List.any_eq_true]
    constructor
    · intro hmine
      exact ⟨row, hrow, decide_eq_true ⟨hid, (hsorted row hrow).mpr (hid ▸ hmine)⟩⟩
    · rintro ⟨other, hother, hmeets⟩
      obtain ⟨hid', htenant⟩ := of_decide_eq_true hmeets
      rw [← hid']
      exact (hsorted other hother).mp htenant

/-- What a run is for one tenant. -/
structure AloneRun (env : Env) (tenant : Option String) (past : List (System × Label))
    (s : System) (own : List (System × Label)) (p : System) : Prop where
  run : Run (step env) System.initial own p
  asked : ∀ moment ∈ own, AskedBy tenant moment.2
  kept : ((own.map Prod.snd).filter fun l => !isCrash l).Sublist (past.map Prod.snd)
  rows : p.db = tenantRows tenant s.db

/-- What happens to a tenant's workflows, their steps and their events in any run is what
happens to them in a run in which nobody else asks for anything. -/
theorem tenant_alone {past : List (System × Label)}
    (run : Run (step env) System.initial past s)
    (hapart : ∀ moment ∈ past, Apart tenant mine moment.1 moment.2) :
    ∃ own p, AloneRun env tenant past s own p := by
  have hsimulated : ∃ own p, Run (step env) System.initial own p ∧
      (∀ moment ∈ own, AskedBy tenant moment.2) ∧
      ((own.map Prod.snd).filter fun l => !isCrash l).Sublist (past.map Prod.snd) ∧
      Alone tenant mine s p := by
    induction run with
    | refl => exact ⟨[], _, .refl, by simp, List.nil_sublist _, alone_initial⟩
    | @snoc past s s' label run hstep ih =>
        obtain ⟨own, p, hrun, hasked, hkept, halone⟩ :=
          ih fun moment hmem => hapart moment (List.mem_append_left _ hmem)
        have hmoment := hapart (s, label) (List.mem_append_right _ (List.mem_singleton_self _))
        obtain ⟨p', more, hmoves, halone'⟩ :=
          alone_step (sound_of_run run (carries_any _)) halone hmoment hstep
        refine ⟨own ++ more, p', hrun.trans hmoves.run, fun moment hmem => ?_, ?_, halone'⟩
        · rcases List.mem_append.mp hmem with hold | hnew
          · exact hasked moment hold
          · exact hmoves.asked moment hnew
        · rw [List.map_append, List.filter_append, List.map_append]
          exact hkept.append hmoves.kept
  obtain ⟨own, p, hrun, hasked, hkept, halone⟩ := hsimulated
  have howned := (sound_of_run run (carries_any _)).coherent.owned
  exact ⟨own, p, hrun, hasked, hkept,
    halone.tables.own.trans (ownRows_eq_tenantRows halone.tables.sorted howned)⟩

section TwoTenants

/-- `Apart` as a check, for the jobs drawn before there are steps. -/
def isApart (tenant : Option String) (mine : String → Bool) (moment : System × Label) : Bool :=
  match moment.2 with
  | .submit _ r => decide (r.tenantId = tenant) == mine r.workflowId
  | .run n choice =>
      match (moment.1.workers n).job with
      | some (e, .starting) => e.all fun e' =>
          decide (e'.tenantId = tenant) == mine (requestedId e'.payload choice.uuid)
      | some (_, .creating r) =>
          !decide (r.tenantId = tenant) || moment.1.db.steps.rows.isEmpty
      | _ => true
  | .deliver _ _ | .crash _ | .tick => true

theorem iff_of_beq {p : Prop} [Decidable p] {b : Bool} (h : (decide p == b) = true) :
    p ↔ b = true := by
  rw [← eq_of_beq h, decide_eq_true_iff]

theorem apart_of_isApart {moment : System × Label} (h : isApart tenant mine moment = true) :
    Apart tenant mine moment.1 moment.2 := by
  rcases moment with ⟨s, label⟩
  cases label with
  | deliver | crash | tick => trivial
  | submit n r => exact iff_of_beq h
  | run n choice =>
      intro e stage hat
      unfold At at hat
      unfold isApart at h
      dsimp only at h hat
      rw [hat] at h
      cases stage with
      | starting =>
          rintro e' rfl
          exact iff_of_beq h
      | creating r =>
          intro htenant row hrow
          have hnone : s.db.steps.rows.isEmpty = true := by
            dsimp only at h
            rwa [decide_eq_true htenant, Bool.not_true, Bool.false_or] at h
          rw [List.isEmpty_iff.mp hnone] at hrow
          exact absurd hrow List.not_mem_nil
      | rereading | queued | completing | advancing | locked | closing | summarising
      | writing => trivial

def requestBy (tenant workflowId : String) : StartRequest where
  workflowId := workflowId
  goal := "site_audit"
  inputs := oneSite
  tenantId := some tenant
  projectId := none

/-- Two tenants ask for an audit each. -/
def twoTenants : List Label :=
  [.submit 0 (requestBy "t" "w"), .run 0 (drawn "e"), .submit 1 (requestBy "u" "v"),
    .run 1 { drawn "f" with jobIds := fun n => "their-" ++ toString n }]

theorem apart_twoTenants :
    ∃ past s, past.map Prod.snd = twoTenants ∧ Run (step asciiEnv) System.initial past s ∧
      (∀ moment ∈ past, Apart (some "t") (· = "w") moment.1 moment.2) ∧
      s.db.workflows.rows.map WorkflowRow.id = ["w", "v"] := by
  obtain ⟨past, s, hlabels, run, hcheck⟩ :=
    Run.of_check (step asciiEnv) System.initial twoTenants
      (fun past s => past.all (isApart (some "t") (· = "w")) &&
        s.db.workflows.rows.map WorkflowRow.id == ["w", "v"]) (by decide +kernel)
  obtain ⟨hapart, hids⟩ := Bool.and_eq_true_iff.mp hcheck
  exact ⟨past, s, hlabels, run, fun moment hmem =>
    apart_of_isApart (List.all_eq_true.mp hapart moment hmem), eq_of_beq hids⟩

end TwoTenants

end SeoPlatform.Orchestrator.Isolation
