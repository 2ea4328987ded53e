import SeoPlatform.Orchestrator.Soundness

namespace SeoPlatform.Orchestrator.Interleavings

open SeoPlatform.Foundation.JsonValue
open SeoPlatform.Foundation.SqlTransaction
open SeoPlatform.Foundation.TransitionSystem
open SeoPlatform.Orchestrator.Store
open SeoPlatform.Orchestrator.StoreSpecs
open SeoPlatform.Orchestrator.Engine
open SeoPlatform.Orchestrator.Workers
open SeoPlatform.Orchestrator.Changes
open SeoPlatform.Orchestrator.HandlerOutcomes
open SeoPlatform.Orchestrator.Refinement
open SeoPlatform.Orchestrator.Coherence
open SeoPlatform.Orchestrator.Frames
open SeoPlatform.Orchestrator.Soundness
open SeoPlatform.Shared.Contracts
open SeoPlatform.Shared.Events

/-- A worker stands at a stage of the handling of a message. -/
def At (s : System) (n : Nat) (e : Option Envelope) (stage : Stage) : Prop :=
  (s.workers n).job = some (e, stage)

/-- The invariant of the orchestrators: every handler may rely on what its
stage relies on, every held lock is held once, and every workflow is started
by one handler at most. -/
structure Sound (traffic : Traffic) (s : System) : Prop where
  coherent : Coherent s.db
  stageOk : ∀ n e stage, At s n e stage → StageOk traffic s.db e stage
  held : ∀ n e stage, At s n e stage → ∀ l ∈ stage.held, l ∈ s.locks
  exclusive : ∀ m n e e' stage stage', At s m e stage → At s n e' stage' →
    ∀ l ∈ stage.held, l ∈ stage'.held → m = n
  starters : ∀ m n e e' stage stage', At s m e stage → At s n e' stage' →
    ∀ workflowId, Stage.starts stage = some workflowId →
      Stage.starts stage' = some workflowId → m = n

variable {env : Env} {traffic : Traffic} {s s' : System} {n : Nat}

theorem sound_initial (traffic : Traffic) : Sound traffic System.initial where
  coherent := coherent_empty
  stageOk _ _ _ h := by simp [At, System.initial] at h
  held _ _ _ h := by simp [At, System.initial] at h
  exclusive _ _ _ _ _ _ h := by simp [At, System.initial] at h
  starters _ _ _ _ _ _ h := by simp [At, System.initial] at h

/-- What a worker's new stage must bring for the invariant to survive. -/
structure Joins (traffic : Traffic) (s s' : System) (n : Nat) (e : Option Envelope)
    (stage : Stage) : Prop where
  stageOk : StageOk traffic s'.db e stage
  held : ∀ l ∈ stage.held, l ∈ s'.locks
  exclusive : ∀ l ∈ stage.held, ∀ m ≠ n, ∀ e' stage', At s m e' stage' → l ∉ stage'.held
  starters : ∀ workflowId, Stage.starts stage = some workflowId →
    ∀ m ≠ n, ∀ e' stage', At s m e' stage' → Stage.starts stage' ≠ some workflowId

/-- A stage that claims nothing for itself joins any system. -/
theorem joins_of_unclaimed {e : Option Envelope} {stage : Stage}
    (hok : StageOk traffic s'.db e stage) (hheld : stage.held = [])
    (hstarts : Stage.starts stage = none) : Joins traffic s s' n e stage where
  stageOk := hok
  held := by simp [hheld]
  exclusive := by simp [hheld]
  starters := by simp [hstarts]

/-- One worker moves; the others stay where they are, on what they rely on. -/
theorem sound_of_move (h : Sound traffic s) (hcoherent : Coherent s'.db)
    (hothers : ∀ m ≠ n, (s'.workers m).job = (s.workers m).job)
    (hkept : ∀ m ≠ n, ∀ e stage, At s m e stage →
      StageOk traffic s'.db e stage ∧ ∀ l ∈ stage.held, l ∈ s'.locks)
    (hjoins : ∀ e stage, At s' n e stage → Joins traffic s s' n e stage) :
    Sound traffic s' := by
  have hat : ∀ m ≠ n, ∀ e stage, At s' m e stage → At s m e stage := by
    intro m hm e stage hmat
    unfold At at hmat ⊢
    rwa [hothers m hm] at hmat
  refine ⟨hcoherent, ?_, ?_, ?_, ?_⟩
  · intro m e stage hmat
    by_cases hm : m = n
    · subst hm
      exact (hjoins e stage hmat).stageOk
    · exact (hkept m hm e stage (hat m hm e stage hmat)).1
  · intro m e stage hmat
    by_cases hm : m = n
    · subst hm
      exact (hjoins e stage hmat).held
    · exact (hkept m hm e stage (hat m hm e stage hmat)).2
  · intro m k e e' stage stage' hmat hkat l hl hl'
    by_cases hm : m = n <;> by_cases hk : k = n
    · exact hm.trans hk.symm
    · subst hm
      exact absurd hl' ((hjoins e stage hmat).exclusive l hl k hk e' stage' (hat k hk _ _ hkat))
    · subst hk
      exact absurd hl ((hjoins e' stage' hkat).exclusive l hl' m hm e stage (hat m hm _ _ hmat))
    · exact h.exclusive m k e e' stage stage' (hat m hm _ _ hmat) (hat k hk _ _ hkat) l hl hl'
  · intro m k e e' stage stage' hmat hkat workflowId hstarts hstarts'
    by_cases hm : m = n <;> by_cases hk : k = n
    · exact hm.trans hk.symm
    · subst hm
      exact absurd hstarts'
        ((hjoins e stage hmat).starters _ hstarts k hk e' stage' (hat k hk _ _ hkat))
    · subst hk
      exact absurd hstarts
        ((hjoins e' stage' hkat).starters _ hstarts' m hm e stage (hat m hm _ _ hmat))
    · exact h.starters m k e e' stage stage' (hat m hm _ _ hmat) (hat k hk _ _ hkat) _ hstarts
        hstarts'

theorem setWorker_self (s : System) (n : Nat) (w : Worker) : (s.setWorker n w).workers n = w := by
  simp [System.setWorker]

theorem setWorker_of_ne (s : System) {m n : Nat} (w : Worker) (h : m ≠ n) :
    (s.setWorker n w).workers m = s.workers m := by
  simp [System.setWorker, h]

/-- The parts of the system after a worker settled. -/
theorem settle_db (s : System) (n : Nat) (w : Worker) (e : Option Envelope) (next : Next) :
    (settle s n w e next).db = s.db := by
  cases next <;> rfl

theorem settle_of_ne (s : System) {m n : Nat} (w : Worker) (e : Option Envelope) (next : Next)
    (h : m ≠ n) : (settle s n w e next).workers m = s.workers m := by
  cases next <;> exact setWorker_of_ne s _ h

theorem job_of_setWorker {w : Worker} {e : Option Envelope} {stage : Stage}
    (h : At (s.setWorker n w) n e stage) : w.job = some (e, stage) := by
  unfold At at h
  rwa [setWorker_self] at h

theorem settle_at {w : Worker} {e e' : Option Envelope} {next : Next} {stage : Stage}
    (h : At (settle s n w e next) n e' stage) : e' = e ∧ next = .goto stage := by
  cases next with
  | goto stage' =>
      cases job_of_setWorker (s := s) h
      exact ⟨rfl, rfl⟩
  | returned | raised =>
      have hjob := job_of_setWorker (s := s) h
      contradiction

theorem settle_locks {w : Worker} {e : Option Envelope} {next : Next} {l : String}
    (h : l ∈ s.locks) : l ∈ (settle s n w e next).locks := by
  cases next with
  | goto stage => exact List.mem_append_right _ h
  | returned | raised => exact h

theorem settle_goto_locks {w : Worker} {e : Option Envelope} {stage : Stage} {l : String}
    (h : l ∈ stage.held) : l ∈ (settle s n w e (.goto stage)).locks :=
  List.mem_append_left _ h

/-- A worker that goes where nothing is claimed leaves the invariant as it is. -/
theorem sound_of_quiet (h : Sound traffic s) (hdb : s'.db = s.db) (hlocks : s'.locks = s.locks)
    (hothers : ∀ m ≠ n, (s'.workers m).job = (s.workers m).job)
    (hown : ∀ e stage, At s' n e stage →
      StageOk traffic s.db e stage ∧ stage.held = [] ∧ Stage.starts stage = none) :
    Sound traffic s' := by
  refine sound_of_move h (by rw [hdb]; exact h.coherent) hothers ?_ ?_
  · intro m _ e stage hat
    rw [hdb, hlocks]
    exact ⟨h.stageOk m e stage hat, h.held m e stage hat⟩
  · intro e stage hat
    obtain ⟨hok, hheld, hstarts⟩ := hown e stage hat
    exact joins_of_unclaimed (by rw [hdb]; exact hok) hheld hstarts

theorem entry_cases {type : EventType} {stage : Stage} (h : entry type = some stage) :
    (type = .workflowRequested ∧ stage = .starting) ∨ stage = .summarising ∨
      ((completions type).isSome ∧ stage = .completing) := by
  unfold entry at h
  split at h
  · exact .inl ⟨rfl, (Option.some.inj h).symm⟩
  · exact .inr (.inl (Option.some.inj h).symm)
  · split at h
    · rename_i hsome
      exact .inr (.inr ⟨hsome, (Option.some.inj h).symm⟩)
    · contradiction

theorem sound_deliver {e : Envelope} (h : Sound traffic s) (hallowed : Envelope.Allowed traffic e)
    (hstep : deliver s n e = some s') : Sound traffic s' ∧ s'.db = s.db := by
  unfold deliver at hstep
  cases hjob : (s.workers n).job with
  | some job => simp [hjob] at hstep
  | none =>
      simp only [hjob] at hstep
      split at hstep
      · obtain rfl := Option.some.inj hstep
        refine ⟨sound_of_quiet (n := n) h rfl rfl (fun _ _ => rfl) ?_, rfl⟩
        intro e' stage hat
        exact absurd (hat.symm.trans hjob) (by simp)
      · split at hstep
        · rename_i stage hentry
          obtain rfl := Option.some.inj hstep
          refine ⟨sound_of_quiet (n := n) h rfl rfl
            (fun m hm => congrArg Worker.job (setWorker_of_ne s _ hm)) ?_, rfl⟩
          intro e' stage' hat
          cases job_of_setWorker hat
          rcases entry_cases hentry with ⟨htype, rfl⟩ | rfl | ⟨hsome, rfl⟩
          · refine ⟨?_, rfl, rfl⟩
            rintro e' ⟨⟩ hvalid uuid
            exact hallowed.2 htype hvalid uuid
          · exact ⟨trivial, rfl, rfl⟩
          · refine ⟨?_, rfl, rfl⟩
            rintro e' ⟨⟩
            exact hallowed.1 hsome
        · obtain rfl := Option.some.inj hstep
          refine ⟨sound_of_quiet (n := n) h rfl rfl
            (fun m hm => congrArg Worker.job (settle_of_ne s _ _ _ hm)) ?_, rfl⟩
          intro e' stage hat
          exact absurd (settle_at hat).2 (by simp)

theorem sound_submit {request : StartRequest} (h : Sound traffic s)
    (hallowed : traffic.request request) (hstep : submit s n request = some s') :
    Sound traffic s' ∧ s'.db = s.db := by
  unfold submit at hstep
  cases hjob : (s.workers n).job with
  | some job => simp [hjob] at hstep
  | none =>
      simp only [hjob] at hstep
      obtain rfl := Option.some.inj hstep
      refine ⟨sound_of_quiet (n := n) h rfl rfl
        (fun m hm => congrArg Worker.job (setWorker_of_ne s _ hm)) ?_, rfl⟩
      intro e stage hat
      cases job_of_setWorker hat
      exact ⟨hallowed, rfl, rfl⟩

/-- Letting go of the locks of a stage takes none from another worker. -/
theorem mem_release (h : Sound traffic s) {m : Nat} {e e' : Option Envelope}
    {stage stage' : Stage} (hat : At s n e stage) (hm : m ≠ n) (hmat : At s m e' stage')
    {l : String} (hl : l ∈ stage'.held) : l ∈ (s.release stage).locks := by
  refine List.mem_filter.mpr ⟨h.held m e' stage' hmat l hl, ?_⟩
  simp only [decide_eq_true_eq]
  intro hother
  exact hm (h.exclusive m n e' e stage' stage hmat hat l hl hother)

theorem sound_crash (h : Sound traffic s) : Sound traffic (crash s n) ∧ (crash s n).db = s.db := by
  have hidle : ∀ (t : System) (seen : List String) (e : Option Envelope) (stage : Stage),
      ¬ At (t.setWorker n { job := none, seen := seen }) n e stage := by
    intro t seen e stage hat
    have hjob := job_of_setWorker hat
    contradiction
  unfold crash
  cases hjob : (s.workers n).job with
  | none =>
      exact ⟨sound_of_quiet (n := n) h rfl rfl
        (fun m hm => congrArg Worker.job (setWorker_of_ne s _ hm))
        fun e stage hat => absurd hat (hidle _ _ _ _), rfl⟩
  | some job =>
      rcases job with ⟨e, stage⟩
      refine ⟨sound_of_move (n := n) h h.coherent
        (fun m hm => congrArg Worker.job (setWorker_of_ne _ _ hm)) ?_
        fun e stage hat => absurd hat (hidle _ _ _ _), rfl⟩
      intro m hm e' stage' hmat
      exact ⟨h.stageOk m e' stage' hmat, fun l hl => mem_release h hjob hm hmat hl⟩

theorem sound_tick (h : Sound traffic s) (clock : Nat) :
    Sound traffic { s with db := { s.db with clock := clock } } where
  coherent :=
    { owned := h.coherent.owned
      queued := h.coherent.queued
      closed := h.coherent.closed
      requested := h.coherent.requested
      orderly := h.coherent.orderly }
  stageOk n e stage hat := by
    have hok := h.stageOk n e stage hat
    cases stage <;> exact hok
  held := h.held
  exclusive := h.exclusive
  starters := h.starters

/-- Writing a summary starts no workflow. -/
theorem unstarted_of_writing {db db' : Db} {workflowId other : String} {e : Option Envelope}
    {choice : Choice} {summary : Dict} {next : Next} (h : Unstarted db workflowId)
    (houtcome : Outcome env db e choice (.writing other summary) next db') :
    Unstarted db' workflowId := by
  obtain ⟨row, hrow, hid, hstatus⟩ := h
  cases houtcome with
  | raised => exact ⟨row, hrow, hid, hstatus⟩
  | saved =>
      refine ⟨_, List.mem_map.mpr ⟨row, hrow, rfl⟩, by simpa using hid, ?_⟩
      unfold WorkflowRow.withSummary
      split <;> exact hstatus

/-- What another worker relies on survives the transaction of a handler that
was free to run. -/
theorem stageOk_kept {m : Nat} {e e' : Option Envelope} {stage stage' : Stage} {choice : Choice}
    {next : Next} {db' : Db} (h : Sound traffic s) (hat : At s n e stage) (hm : m ≠ n)
    (hmat : At s m e' stage') (hfree : ∀ l ∈ stage.waitsFor, l ∉ s.locks)
    (houtcome : Outcome env s.db e choice stage next db')
    (heffect : Effect env traffic s.db e stage next db') : StageOk traffic db' e' stage' := by
  have hok := h.stageOk m e' stage' hmat
  have hok' := h.stageOk n e stage hat
  have hunstarted : ∀ workflowId, Stage.starts stage' = some workflowId →
      Unstarted s.db workflowId → Unstarted db' workflowId := by
    intro workflowId hstarts hun
    obtain ⟨row, hrow, hid, hqueued⟩ := hun
    by_cases htarget : Stage.target stage = some workflowId
    · cases stage with
      | queued other =>
          have hsame := h.starters m n e' e stage' _ hmat hat workflowId hstarts htarget
          exact absurd hsame hm
      | locked other fresh loaded =>
          cases loaded with
          | none => simp [Stage.target] at htarget
          | some w =>
              obtain rfl := Option.some.inj htarget
              exact absurd hok'.1 (not_begun_of_unstarted ⟨row, hrow, hid, hqueued⟩)
      | writing other summary =>
          exact unstarted_of_writing ⟨row, hrow, hid, hqueued⟩ houtcome
      | starting | creating | rereading | completing | advancing | closing | summarising =>
          simp [Stage.target] at htarget
    · refine Unstarted.of_sameRows ⟨row, hrow, hid, hqueued⟩
        (heffect.frame workflowId ⟨row, hrow, hid⟩ (fun r hr hworkflow hdispatched => ?_) htarget)
      have hpending := h.coherent.queued row hrow hqueued r hr (hworkflow.trans hid.symm)
      rw [hdispatched] at hpending
      contradiction
  cases stage' with
  | rereading workflowId => exact hunstarted workflowId rfl hok
  | queued workflowId => exact hunstarted workflowId rfl hok
  | advancing workflowId fresh => exact Begun.of_change hok heffect.change
  | locked workflowId fresh loaded =>
      refine ⟨Begun.of_change hok.1 heffect.change, ?_⟩
      rintro w rfl hact
      have hsnapshot := hok.2 w rfl hact
      have hlocked : workflowId ∈ s.locks :=
        h.held m e' _ hmat workflowId (List.mem_singleton_self _)
      obtain ⟨row, hrow, hid, -⟩ := hok.1
      have htarget : Stage.target stage ≠ some workflowId := by
        intro htarget
        cases stage with
        | queued other | writing other _ =>
            obtain rfl := Option.some.inj htarget
            exact hfree _ (List.mem_singleton_self _) hlocked
        | locked other fresh' loaded =>
            cases loaded with
            | none => simp [Stage.target] at htarget
            | some w' =>
                obtain rfl := Option.some.inj htarget
                exact hm (h.exclusive m n e' e _ _ hmat hat _ (List.mem_singleton_self _)
                  (List.mem_singleton_self _))
        | starting | creating | rereading | completing | advancing | closing | summarising =>
            simp [Stage.target] at htarget
      have hsame := heffect.frame workflowId ⟨row, hrow, hid⟩
        (idle_of_actionable h.coherent hsnapshot hact) htarget
      rw [hsame.snapshot_eq, hsnapshot]
  | starting | creating | completing | closing | summarising | writing => exact hok

/-- What a handler's next stage claims for itself, no other worker claims. -/
theorem joins_of_next {e : Option Envelope} {stage stage' : Stage} {next : Next} {db' : Db}
    (h : Sound traffic s) (hat : At s n e stage) (hfree : ∀ l ∈ stage.waitsFor, l ∉ s.locks)
    (heffect : Effect env traffic s.db e stage next db') (hnext : next = .goto stage')
    (hdb : s'.db = db') (hlocks : ∀ l ∈ stage'.held, l ∈ s'.locks) :
    Joins traffic s s' n e stage' where
  stageOk := by
    rw [hdb]
    exact heffect.stageOk stage' hnext
  held := hlocks
  exclusive l hl m _ e' other hmat hl' := by
    have hfollows := heffect.follows stage' hnext
    cases stage' with
    | locked workflowId fresh loaded =>
        cases loaded with
        | none => simp [Stage.held] at hl
        | some w =>
            obtain rfl := List.mem_singleton.mp hl
            obtain rfl : stage = .advancing l fresh := hfollows
            exact hfree l (List.mem_singleton_self _) (h.held m e' other hmat l hl')
    | starting | creating | rereading | queued | completing | advancing | closing | summarising
    | writing => simp [Stage.held] at hl
  starters workflowId hstarts m hm e' other hmat hstarts' := by
    have hfollows := heffect.follows stage' hnext
    cases stage' with
    | rereading workflowId' =>
        obtain rfl := Option.some.inj hstarts
        obtain ⟨request, -, -, hunused⟩ := hfollows
        have hok := h.stageOk m e' other hmat
        cases other with
        | rereading workflowId' | queued workflowId' =>
            obtain rfl := Option.some.inj hstarts'
            obtain ⟨row, hrow, hid, -⟩ := hok
            exact hunused row hrow hid
        | starting | creating | completing | advancing | locked | closing | summarising
        | writing => simp [Stage.starts] at hstarts'
    | queued workflowId' =>
        obtain rfl := Option.some.inj hstarts
        obtain rfl : stage = .rereading workflowId' := hfollows
        exact hm (h.starters m n e' e other _ hmat hat workflowId' hstarts' rfl)
    | starting | creating | completing | advancing | locked | closing | summarising
    | writing => simp [Stage.starts] at hstarts

theorem sound_run {choice : Choice} (h : Sound traffic s)
    (hstep : runStep env s n choice = some s') :
    Sound traffic s' ∧ Change env traffic s.db s'.db := by
  unfold runStep at hstep
  cases hjob : (s.workers n).job with
  | none => simp [hjob] at hstep
  | some job =>
      rcases job with ⟨e, stage⟩
      simp only [hjob] at hstep
      split at hstep
      · contradiction
      · rename_i hblocked
        have hfree : ∀ l ∈ stage.waitsFor, l ∉ s.locks := by
          simpa using hblocked
        split at hstep
        · contradiction
        · rename_i hdraws
          have hfresh : Stage.drawsEventId stage = true →
              freshEventId s.db choice.eventId = true := by
            simpa using hdraws
          obtain rfl := Option.some.inj hstep
          have houtcome := outcome_of_handlerStep env s.db e choice stage
          have heffect := effect_of_outcome h.coherent hfresh (h.stageOk n e stage hjob) houtcome
          refine ⟨?_, by rw [settle_db]; exact heffect.change⟩
          refine sound_of_move (n := n) h ?_ ?_ ?_ ?_
          · rw [settle_db]
            exact coherent_of_change h.coherent heffect.change
          · exact fun m hm => congrArg Worker.job (settle_of_ne _ _ _ _ hm)
          · intro m hm e' stage' hmat
            refine ⟨?_, fun l hl => settle_locks (mem_release h hjob hm hmat hl)⟩
            rw [settle_db]
            exact stageOk_kept h hjob hm hmat hfree houtcome heffect
          · intro e' stage' hat
            obtain ⟨rfl, hnext⟩ := settle_at hat
            refine joins_of_next h hjob hfree heffect hnext (settle_db ..) ?_
            intro l hl
            rw [hnext]
            exact settle_goto_locks hl

/-- Every step of the orchestrators keeps the invariant, and does to the tables
one of the changes. -/
theorem sound_step {label : Label} (h : Sound traffic s) (hallowed : Label.Allowed traffic label)
    (hstep : step env s label = some s') : Sound traffic s' ∧ Change env traffic s.db s'.db := by
  cases label with
  | deliver n e =>
      obtain ⟨hsound, hdb⟩ := sound_deliver h hallowed hstep
      exact ⟨hsound, .quiet (by rw [hdb]) (by rw [hdb]) (by rw [hdb])⟩
  | submit n request =>
      obtain ⟨hsound, hdb⟩ := sound_submit h hallowed hstep
      exact ⟨hsound, .quiet (by rw [hdb]) (by rw [hdb]) (by rw [hdb])⟩
  | run n choice => exact sound_run h hstep
  | crash n =>
      obtain rfl := Option.some.inj hstep
      obtain ⟨hsound, hdb⟩ := sound_crash (n := n) h
      exact ⟨hsound, .quiet (by rw [hdb]) (by rw [hdb]) (by rw [hdb])⟩
  | tick =>
      obtain rfl := Option.some.inj hstep
      exact ⟨sound_tick h _, .quiet rfl rfl rfl⟩

/-- The labels of a run carry what is known about its traffic. -/
def Carries (traffic : Traffic) (past : List (System × Label)) : Prop :=
  ∀ moment ∈ past, Label.Allowed traffic moment.2

theorem allowed_any (label : Label) : Label.Allowed .any label := by
  cases label with
  | deliver n e => exact ⟨fun _ => trivial, fun _ _ _ => trivial⟩
  | submit n request => trivial
  | run | crash | tick => trivial

theorem carries_any (past : List (System × Label)) : Carries .any past :=
  fun moment _ => allowed_any moment.2

/-- The invariant holds after every run. -/
theorem sound_of_run {past : List (System × Label)}
    (run : Run (step env) System.initial past s) (hcarries : Carries traffic past) :
    Sound traffic s :=
  run.invariant_of (fun _ label => Label.Allowed traffic label) hcarries (Sound traffic)
    (sound_initial traffic) fun _ _ _ h hallowed hstep => (sound_step h hallowed hstep).1

/-- What the changes keep is kept by every run. -/
theorem kept_of_run {past : List (System × Label)}
    (run : Run (step env) System.initial past s) (hcarries : Carries traffic past)
    (I : Db → Prop) (hempty : I .empty)
    (hchange : ∀ db db', Coherent db → I db → Change env traffic db db' → I db') : I s.db := by
  refine (run.invariant_of (fun _ label => Label.Allowed traffic label) hcarries
    (fun s => Sound traffic s ∧ I s.db) ⟨sound_initial traffic, hempty⟩ ?_).2
  rintro s label s' ⟨hsound, hI⟩ hallowed hstep
  obtain ⟨hsound', hchanged⟩ := sound_step hsound hallowed hstep
  exact ⟨hsound', hchange _ _ hsound.coherent hI hchanged⟩

end SeoPlatform.Orchestrator.Interleavings
