import SeoPlatform.Orchestrator.OneAudit
import SeoPlatform.Orchestrator.ScheduleApi

namespace SeoPlatform.Gateway.ScheduleCalls

open SeoPlatform.Foundation.ConstrainedTable
open SeoPlatform.Foundation.TransitionSystem
open SeoPlatform.Gateway.ServiceClient
open SeoPlatform.Orchestrator
open SeoPlatform.Orchestrator.HeldSchedules
open SeoPlatform.Orchestrator.OneAudit
open SeoPlatform.Orchestrator.ScheduleApi
open SeoPlatform.Orchestrator.Schedules
open SeoPlatform.Orchestrator.Schedulers (System)
open SeoPlatform.Shared.Contracts

/-- What a caller of the public API asks about schedules. A draft names no
tenant: `store` fills it in. -/
inductive Call where
  | store (draft : Draft) (projectId : Option String)
  | index
  | pause (id : String) (active : Bool)
  | destroy (id : String)

/-- The services, the projects of each tenant, and the HTTP client. -/
structure Deployment extends Service where
  wording : Wording
  ownsProject : Option String → String → Bool
  placement : Placement

variable (deployment : Deployment)

/-- The request that a call turns into, unless the gateway refuses it. -/
def requestOf (principal : Principal) : Call → Option (Request Draft)
  | .store draft projectId =>
      (ownedProjectId deployment.ownsProject principal projectId).map fun projectId =>
        httpPost ["v1", "schedules"] []
          (.json { draft with tenantId := principal.tenantId, projectId := projectId })
  | .index => some (httpGet ["v1", "schedules"] (scopedTo principal.tenantId))
  | .pause id active =>
      some (httpPost ["v1", "schedules", id, "pause"]
        (("active", if active then "true" else "false") :: scopedTo principal.tenantId) .none)
  | .destroy id =>
      some (httpDelete deployment.placement ["v1", "schedules", id]
        (scopedTo principal.tenantId))

/-- What the caller is told of a service's response. -/
def relayed : Call → Response Schedule → Response Schedule
  | .store _ _, response => usableOr422 response
  | .index, response => usable response
  | .pause _ _, response => usableOr404 response
  | .destroy _, response => usableOr404 response

/-- A call, all the way to the orchestrator and back. -/
def answer (s : System) (principal : Principal) (call : Call) :
    Option (Response Schedule × System) :=
  match requestOf deployment principal call with
  | none => some (⟨422, []⟩, s)
  | some request =>
      (serve deployment.toService s request).map fun (response, after) =>
        (relayed call response, after)

inductive Label where
  | ask (principal : Principal) (call : Call)
  | work (label : Schedulers.Label)

/-- What schedulers and the clock do. -/
def isWork : Schedulers.Label → Bool
  | .create _ _ | .pause _ _ | .delete _ => false
  | _ => true

def step (s : System) : Label → Option System
  | .ask principal call => (answer deployment s principal call).map Prod.snd
  | .work label =>
      if isWork label then
        Schedulers.step deployment.host deployment.wording deployment.uuid s label
      else none

/-- The schedules of a tenant. -/
def own (tenant : String) (s : System) : List Schedule :=
  s.schedules.rows.filter fun row => row.tenantId = some tenant

variable {deployment : Deployment} {s s' : System} {past : List (System × Label)} {tenant : String}

section Tables

variable {schedules : ScheduleTable} {id : String} {active : Bool} {tenantId : Option String}
  {row : Schedule}

theorem tenantId_of_reached {tenant : String} (h : Schedule.reached id (some tenant) row = true) :
    row.tenantId = some tenant := by
  simp only [Schedule.reached, Schedule.inScope, Option.all_some, Bool.and_eq_true,
    decide_eq_true_eq] at h
  exact h.2

theorem tenantId_switched :
    (Schedule.switched id active tenantId row).tenantId = row.tenantId := by
  unfold Schedule.switched
  split <;> rfl

/-- What another tenant is given in scope leaves the rows of a tenant as they are. -/
theorem own_switched {other : String} (hother : other ≠ tenant) (rows : List Schedule) :
    (rows.map (Schedule.switched id active (some other))).filter
        (fun row => row.tenantId = some tenant) =
      rows.filter fun row => row.tenantId = some tenant := by
  induction rows with
  | nil => rfl
  | cons row rows ih =>
      rw [List.map_cons, List.filter_cons, List.filter_cons, tenantId_switched, ih]
      split
      · rename_i htenant
        have hnot : ¬ Schedule.reached id (some other) row = true := fun hreached => by
          rw [tenantId_of_reached hreached] at htenant
          exact hother (Option.some.inj (of_decide_eq_true htenant))
        rw [Schedule.switched, if_neg hnot]
      · rfl

theorem own_deleted {other : String} (hother : other ≠ tenant) :
    (schedules.delete (Schedule.reached id (some other))).rows.filter
        (fun row => row.tenantId = some tenant) =
      schedules.rows.filter fun row => row.tenantId = some tenant := by
  show ((schedules.rows.filter _).filter _) = _
  rw [List.filter_filter]
  apply List.filter_congr
  intro row _
  by_cases htenant : row.tenantId = some tenant
  · have hnot : Schedule.reached id (some other) row = false := by
      rw [Bool.eq_false_iff]
      intro hreached
      rw [tenantId_of_reached hreached] at htenant
      exact hother (Option.some.inj htenant)
    simp [htenant, hnot]
  · simp [htenant]

/-- A DELETE in nobody's name leaves a tenant what does not have the id. -/
theorem own_deleted_unscoped :
    (schedules.delete (Schedule.reached id none)).rows.filter
        (fun row => row.tenantId = some tenant) =
      (schedules.rows.filter fun row => row.tenantId = some tenant).filter fun row =>
        row.id ≠ id := by
  show ((schedules.rows.filter _).filter _) = _
  rw [List.filter_filter, List.filter_filter]
  apply List.filter_congr
  intro row _
  simp [Schedule.reached, Schedule.inScope, Bool.and_comm]

end Tables

/-- What the creation of a schedule comes to. -/
theorem createSchedule_cases {service : Service} {draft : Draft} {response : Response Schedule}
    (h : createSchedule service s draft = some (response, s')) :
    s'.schedulers = s.schedulers ∧ s'.locks = s.locks ∧ s'.firings = s.firings ∧
      s.drawn ≤ s'.drawn ∧
      (response.shown = [] ∧ s'.schedules = s.schedules ∨
        ∃ row, response.shown = [row] ∧ s'.schedules.rows = s.schedules.rows ++ [row] ∧
          row.tenantId = draft.tenantId ∧ row.id = service.uuid s.drawn ∧
          s'.drawn = s.drawn + 1) := by
  unfold createSchedule at h
  split at h
  · cases h
    exact ⟨rfl, rfl, rfl, le_rfl, .inl ⟨rfl, rfl⟩⟩
  · split at h
    · cases h
      exact ⟨rfl, rfl, rfl, le_rfl, .inl ⟨rfl, rfl⟩⟩
    · cases h
      exact ⟨rfl, rfl, rfl, le_rfl, .inl ⟨rfl, rfl⟩⟩
    · rename_i row hrow
      split at h
      · cases h
        exact ⟨rfl, rfl, rfl, Nat.le_succ _, .inl ⟨rfl, rfl⟩⟩
      · split at h
        · cases h
          exact ⟨rfl, rfl, rfl, Nat.le_succ _, .inl ⟨rfl, rfl⟩⟩
        · rename_i schedules hinsert
          cases h
          have hrows := (Table.insert_eq_some.mp hinsert).2
          have hnew : row.tenantId = draft.tenantId ∧ row.id = service.uuid s.drawn := by
            unfold Draft.row at hrow
            split at hrow
            · contradiction
            · split at hrow
              · cases hrow
                exact ⟨rfl, rfl⟩
              · contradiction
          exact ⟨rfl, rfl, rfl, Nat.le_succ _, .inr ⟨row, rfl, hrows, hnew.1, hnew.2, rfl⟩⟩

theorem own_createSchedule {service : Service} {draft : Draft} {response : Response Schedule}
    (h : createSchedule service s draft = some (response, s'))
    (htenant : draft.tenantId ≠ some tenant) : own tenant s' = own tenant s := by
  obtain ⟨-, -, -, -, ⟨-, hsame⟩ | ⟨row, -, hrows, hnew, -⟩⟩ := createSchedule_cases h
  · unfold own
    rw [hsame]
  · unfold own
    rw [hrows, List.filter_append, List.filter_cons]
    simp [hnew, htenant]

theorem serve_pause (service : Service) (id : String) (active : Bool) (tenantId : Option String) :
    serve service s (httpPost ["v1", "schedules", id, "pause"]
      (("active", if active then "true" else "false") :: scopedTo tenantId) .none) =
        pauseSchedule s id active (some (tenantId.getD nobody)) := by
  cases active <;> simp [serve, httpPost, activeIn, scopedTo, List.lookup_cons]

/-- What a DELETE is scoped to. -/
def deleteScope (placement : Placement) (principal : Principal) : Option String :=
  match placement with
  | .query => some (principal.tenantId.getD nobody)
  | .body => none

theorem serve_delete (service : Service) (placement : Placement) (principal : Principal)
    (id : String) :
    serve service s (httpDelete placement ["v1", "schedules", id]
      (scopedTo principal.tenantId)) =
        deleteSchedule s id (deleteScope placement principal) := by
  cases placement <;> simp [serve, httpDelete, scopedTo, deleteScope]

theorem own_pauseSchedule {id other : String} {active : Bool} {response : Response Schedule}
    (h : pauseSchedule s id active (some other) = some (response, s')) (hother : other ≠ tenant) :
    own tenant s' = own tenant s := by
  unfold pauseSchedule at h
  split at h
  · cases h
    exact own_switched hother s.schedules.rows
  · contradiction

theorem own_deleteSchedule {id : String} {tenantId : Option String}
    {response : Response Schedule} (h : deleteSchedule s id tenantId = some (response, s')) :
    s'.schedules = s.schedules.delete (Schedule.reached id tenantId) := by
  unfold deleteSchedule at h
  split at h
  · cases h
    rfl
  · contradiction

theorem getD_ne {principal : Principal} (hforeign : principal.tenantId ≠ some tenant)
    (hnobody : tenant ≠ nobody) : principal.tenantId.getD nobody ≠ tenant := by
  cases htenant : principal.tenantId with
  | none => exact hnobody.symm
  | some other => exact fun h => hforeign (htenant.trans (congrArg some h))

/-- What the call of another principal leaves of a tenant's schedules. -/
def spared (placement : Placement) (tenant : String) (s : System) : Call → List Schedule
  | .destroy id =>
      if placement = .body then (own tenant s).filter fun row => row.id ≠ id else own tenant s
  | _ => own tenant s

/-- What a call comes to: refused by the gateway, or a step of the orchestrator. -/
inductive Came (deployment : Deployment) (s : System) (principal : Principal) :
    Call → Response Schedule → System → Prop
  | refused (draft : Draft) (projectId : Option String) :
      Came deployment s principal (.store draft projectId) ⟨422, []⟩ s
  | stored {draft : Draft} {projectId projectId' : Option String} {response : Response Schedule}
      {s' : System}
      (h : createSchedule deployment.toService s
        { draft with tenantId := principal.tenantId, projectId := projectId' } =
          some (response, s')) :
      Came deployment s principal (.store draft projectId) response s'
  | listed :
      Came deployment s principal .index
        ⟨200, ownedBy s.schedules (some (principal.tenantId.getD nobody))⟩ s
  | paused {id : String} {active : Bool} {response : Response Schedule} {s' : System}
      (h : pauseSchedule s id active (some (principal.tenantId.getD nobody)) =
        some (response, s')) :
      Came deployment s principal (.pause id active) response s'
  | destroyed {id : String} {response : Response Schedule} {s' : System}
      (h : deleteSchedule s id (deleteScope deployment.placement principal) =
        some (response, s')) :
      Came deployment s principal (.destroy id) response s'

theorem came_of_answer {principal : Principal} {call : Call} {response : Response Schedule}
    (h : answer deployment s principal call = some (response, s')) :
    ∃ told, Came deployment s principal call told s' ∧ response = relayed call told := by
  unfold answer at h
  cases call with
  | store draft projectId =>
      simp only [requestOf] at h
      cases hproject : ownedProjectId deployment.ownsProject principal projectId with
      | none =>
          simp only [hproject, Option.map_none] at h
          cases h
          exact ⟨_, .refused _ _, rfl⟩
      | some projectId' =>
          simp only [hproject, Option.map_some] at h
          obtain ⟨⟨told, after⟩, hserve, heq⟩ := Option.map_eq_some_iff.mp h
          cases heq
          exact ⟨told, .stored hserve, rfl⟩
  | index =>
      obtain ⟨⟨told, after⟩, hserve, heq⟩ := Option.map_eq_some_iff.mp h
      cases heq
      cases hserve
      exact ⟨_, .listed, rfl⟩
  | pause id active =>
      obtain ⟨⟨told, after⟩, hserve, heq⟩ := Option.map_eq_some_iff.mp h
      cases heq
      rw [serve_pause] at hserve
      exact ⟨told, .paused hserve, rfl⟩
  | destroy id =>
      obtain ⟨⟨told, after⟩, hserve, heq⟩ := Option.map_eq_some_iff.mp h
      cases heq
      rw [serve_delete] at hserve
      exact ⟨told, .destroyed hserve, rfl⟩

theorem shown_relayed (call : Call) (told : Response Schedule) :
    (relayed call told).shown ⊆ told.shown := by
  cases call with
  | store => exact shown_usableOr422 told
  | index => exact shown_usable told
  | pause => exact shown_usableOr404 told
  | destroy => exact shown_usableOr404 told

theorem own_of_came {principal : Principal} {call : Call} {told : Response Schedule}
    (h : Came deployment s principal call told s') (hforeign : principal.tenantId ≠ some tenant)
    (hnobody : tenant ≠ nobody) : own tenant s' = spared deployment.placement tenant s call := by
  have hother := getD_ne hforeign hnobody
  cases h with
  | refused => rfl
  | stored h => exact own_createSchedule h hforeign
  | listed => rfl
  | paused h => exact own_pauseSchedule h hother
  | destroyed h =>
      have hschedules := own_deleteSchedule h
      unfold own spared
      rw [hschedules]
      cases deployment.placement with
      | query => exact own_deleted hother
      | body => exact own_deleted_unscoped

section Owners

/-- No schedule is owned by the tenant that stands in for none. -/
def Unowned (s : System) : Prop := ∀ row ∈ s.schedules.rows, row.tenantId ≠ some nobody

/-- Each schedule has the owner of one that was there, or is the caller's. -/
theorem owners_of_came {principal : Principal} {call : Call} {told : Response Schedule}
    (h : Came deployment s principal call told s') :
    ∀ row' ∈ s'.schedules.rows, row'.tenantId = principal.tenantId ∨
      ∃ row ∈ s.schedules.rows, row.tenantId = row'.tenantId := by
  intro row' hrow'
  cases h with
  | refused => exact .inr ⟨row', hrow', rfl⟩
  | listed => exact .inr ⟨row', hrow', rfl⟩
  | stored h =>
      obtain ⟨-, -, -, -, ⟨-, hsame⟩ | ⟨row, -, hrows, hnew, -⟩⟩ := createSchedule_cases h
      · exact .inr ⟨row', hsame ▸ hrow', rfl⟩
      · rw [hrows] at hrow'
        rcases List.mem_append.mp hrow' with hold | hrow'
        · exact .inr ⟨row', hold, rfl⟩
        · rw [List.mem_singleton.mp hrow']
          exact .inl hnew
  | paused h =>
      unfold pauseSchedule at h
      split at h
      · cases h
        obtain ⟨row, hrow, rfl⟩ := List.mem_map.mp hrow'
        exact .inr ⟨row, hrow, tenantId_switched.symm⟩
      · contradiction
  | destroyed h =>
      rw [own_deleteSchedule h] at hrow'
      exact .inr ⟨row', (Table.mem_delete.mp hrow').1, rfl⟩

theorem tenantId_updatedBy (changes : List Change) (row : Schedule) :
    (updatedBy changes row).tenantId = row.tenantId := by
  induction changes generalizing row with
  | nil => rfl
  | cons change rest ih =>
      refine (ih _).trans ?_
      show (change.appliedWhere row).tenantId = row.tenantId
      unfold Change.appliedWhere
      split
      · cases change <;> rfl
      · rfl

/-- Schedulers change what a schedule says, and neither its id nor its owner. -/
theorem rows_of_work {label : Schedulers.Label} (hwork : isWork label = true)
    (hstep : Schedulers.step deployment.host deployment.wording deployment.uuid s label = some s') :
    s'.schedules = s.schedules ∨ ∃ changes, s'.schedules.rows =
      s.schedules.rows.map (updatedBy changes) := by
  cases label with
  | create creator draft => contradiction
  | pause id active => contradiction
  | delete id => contradiction
  | tick elapsed =>
      cases hstep
      exact .inl rfl
  | begin n limit =>
      simp only [Schedulers.step] at hstep
      split at hstep
      · cases hstep
        exact .inl rfl
      · contradiction
  | select n order =>
      simp only [Schedulers.step, Schedulers.selectDue] at hstep
      split at hstep
      · split at hstep
        · cases hstep
          exact .inl rfl
        · contradiction
      · contradiction
  | lock n =>
      simp only [Schedulers.step, Schedulers.lockNext] at hstep
      split at hstep
      · cases hstep
        exact .inl rfl
      · cases hstep
        exact .inl rfl
      · split at hstep <;> cases hstep <;> exact .inl rfl
      · contradiction
  | fire n =>
      simp only [Schedulers.step, Schedulers.fireNext] at hstep
      split at hstep
      · split at hstep <;> cases hstep <;> exact .inl rfl
      · contradiction
  | commit n =>
      simp only [Schedulers.step, Schedulers.commitBatch] at hstep
      split at hstep
      · rename_i now changes hphase
        cases hstep
        exact .inr ⟨changes, rows_updates⟩
      · contradiction
  | abort n =>
      simp only [Schedulers.step] at hstep
      split at hstep
      · contradiction
      · cases hstep
        exact .inl rfl

theorem unowned_of_step {label : Label} (h : Unowned s)
    (hlabel : ∀ principal call, label = .ask principal call → principal.tenantId ≠ some nobody)
    (hstep : step deployment s label = some s') : Unowned s' := by
  intro row' hrow'
  cases label with
  | ask principal call =>
      obtain ⟨⟨response, after⟩, hanswer, heq⟩ := Option.map_eq_some_iff.mp hstep
      cases heq
      obtain ⟨told, hcame, -⟩ := came_of_answer hanswer
      rcases owners_of_came hcame row' hrow' with hmine | ⟨row, hrow, hsame⟩
      · rw [hmine]
        exact hlabel principal call rfl
      · rw [← hsame]
        exact h row hrow
  | work label =>
      simp only [step] at hstep
      split at hstep
      · rename_i hwork
        rcases rows_of_work hwork hstep with hsame | ⟨changes, hrows⟩
        · exact h row' (hsame ▸ hrow')
        · rw [hrows] at hrow'
          obtain ⟨row, hrow, rfl⟩ := List.mem_map.mp hrow'
          rw [tenantId_updatedBy]
          exact h row hrow
      · contradiction

/-- What a call shows is the caller's own. -/
theorem shown_of_came {principal : Principal} {call : Call} {told : Response Schedule}
    (hunowned : Unowned s) (h : Came deployment s principal call told s') :
    ∀ row ∈ told.shown, row.tenantId = principal.tenantId := by
  have hscope {rows : List Schedule} {row : Schedule} (hrow : row ∈ rows)
      (hrows : ∀ row ∈ rows, row.tenantId ≠ some nobody)
      (htenant : row.tenantId = some (principal.tenantId.getD nobody)) :
      row.tenantId = principal.tenantId := by
    cases hprincipal : principal.tenantId with
    | none =>
        rw [hprincipal] at htenant
        exact absurd htenant (hrows row hrow)
    | some other =>
        rw [hprincipal] at htenant
        exact htenant
  intro row hrow
  cases h with
  | refused => contradiction
  | stored h =>
      obtain ⟨-, -, -, -, ⟨hshown, -⟩ | ⟨row', hshown, -, hnew, -⟩⟩ := createSchedule_cases h
      · rw [hshown] at hrow
        contradiction
      · rw [hshown, List.mem_singleton] at hrow
        rw [hrow]
        exact hnew
  | listed =>
      obtain ⟨hmem, htenant⟩ := List.mem_filter.mp hrow
      exact hscope hmem hunowned (of_decide_eq_true htenant)
  | paused h =>
      unfold pauseSchedule at h
      split at h
      · simp only at h
        split at h
        · cases h
          have hfound := Option.mem_toList.mp hrow
          have hmem := List.mem_of_find?_eq_some hfound
          refine hscope hmem ?_ (tenantId_of_reached (List.find?_some hfound))
          intro row hrow
          obtain ⟨old, hold, rfl⟩ := List.mem_map.mp hrow
          rw [tenantId_switched]
          exact hunowned old hold
        · cases h
          contradiction
      · contradiction
  | destroyed h =>
      unfold deleteSchedule at h
      split at h
      · simp only at h
        split at h <;> cases h <;> contradiction
      · contradiction

theorem unowned_of_run (run : Run (step deployment) System.initial past s)
    (hasked : ∀ moment ∈ past, ∀ principal call, moment.2 = .ask principal call →
      principal.tenantId ≠ some nobody) : Unowned s :=
  run.invariant_of
    (fun _ label => ∀ principal call, label = .ask principal call →
      principal.tenantId ≠ some nobody)
    hasked Unowned (fun _ hrow => absurd hrow List.not_mem_nil)
    fun _ _ _ h hlabel hstep => unowned_of_step h hlabel hstep

end Owners

/-- No call of another principal changes the schedules of a tenant. -/
def KeptApart (deployment : Deployment) (tenant : String) (past : List (System × Label)) : Prop :=
  ∀ moment ∈ past, ∀ principal call s', moment.2 = .ask principal call →
    principal.tenantId ≠ some tenant → step deployment moment.1 moment.2 = some s' →
      own tenant s' = own tenant moment.1

/-- No DELETE of another principal names a schedule of a tenant. -/
def NeverNamed (tenant : String) (past : List (System × Label)) : Prop :=
  ∀ moment ∈ past, ∀ principal id, moment.2 = .ask principal (.destroy id) →
    principal.tenantId ≠ some tenant → ∀ row ∈ own tenant moment.1, row.id ≠ id

/-- In every run what a call shows is the caller's own. Its schedules are changed
by a tenant's own calls and by the schedulers alone exactly if the tenant goes
with a DELETE where the service looks for it, or no DELETE of another names them. -/
theorem schedules_kept_apart (run : Run (step deployment) System.initial past s)
    (hnobody : tenant ≠ nobody)
    (hasked : ∀ moment ∈ past, ∀ principal call, moment.2 = .ask principal call →
      principal.tenantId ≠ some nobody) :
    (∀ moment ∈ past, ∀ principal call response s', moment.2 = .ask principal call →
        answer deployment moment.1 principal call = some (response, s') →
        ∀ row ∈ response.shown, row.tenantId = principal.tenantId) ∧
      (KeptApart deployment tenant past ↔
        deployment.placement = .query ∨ NeverNamed tenant past) := by
  refine ⟨?_, ?_, ?_⟩
  · rintro ⟨before, label⟩ hmem principal call response s' rfl hanswer row hrow
    obtain ⟨earlier, later, after, hpast, hearlier, -, -⟩ := run.moment hmem
    have hunowned := unowned_of_run hearlier fun moment hmoment =>
      hasked moment (hpast ▸ List.mem_append_left _ hmoment)
    obtain ⟨told, hcame, rfl⟩ := came_of_answer hanswer
    exact shown_of_came hunowned hcame row (shown_relayed call told hrow)
  · intro hkept
    rw [or_iff_not_imp_left]
    rintro hplacement ⟨before, label⟩ hmem principal id rfl hforeign row hrow hid
    obtain ⟨earlier, later, after, -, -, hstep, -⟩ := run.moment hmem
    have hsame := hkept _ hmem principal _ after rfl hforeign hstep
    obtain ⟨⟨response, after⟩, hanswer, heq⟩ := Option.map_eq_some_iff.mp hstep
    cases heq
    obtain ⟨told, hcame, -⟩ := came_of_answer hanswer
    have hbody : deployment.placement = .body := by
      cases h : deployment.placement with
      | query => exact absurd h hplacement
      | body => rfl
    have hspared := own_of_came hcame hforeign hnobody
    rw [hsame, spared, if_pos hbody] at hspared
    rw [hspared] at hrow
    have hne := (List.mem_filter.mp hrow).2
    simp [hid] at hne
  · rintro hsafe ⟨before, label⟩ hmem principal call s' rfl hforeign hstep
    obtain ⟨⟨response, after⟩, hanswer, heq⟩ := Option.map_eq_some_iff.mp hstep
    cases heq
    obtain ⟨told, hcame, -⟩ := came_of_answer hanswer
    rw [own_of_came hcame hforeign hnobody]
    cases call with
    | store | index | pause => rfl
    | destroy id =>
        simp only [spared]
        split
        · rename_i hbody
          refine List.filter_eq_self.mpr fun row hrow => ?_
          have hnamed := hsafe.resolve_left fun hquery => by
            rw [hquery] at hbody
            contradiction
          exact decide_eq_true (hnamed _ hmem principal id rfl hforeign row hrow)
        · rfl

/-- An installation whose HTTP client puts the data of a DELETE into its body. -/
def installed : Deployment where
  host := utcHost
  uuid := plainUuid
  knows _ _ := true
  plannable _ := true
  wording _ _ := ""
  ownsProject _ _ := true
  placement := .body

/-- One tenant has a schedule, and another deletes it. -/
def foreignDelete : List Label :=
  [.work (.tick midnight), .ask ⟨some "a"⟩ (.store everyMorning none),
    .ask ⟨some "b"⟩ (.destroy "")]

theorem schedules_kept_apart_foreignDelete :
    ∃ past s, past.map Prod.snd = foreignDelete ∧ Run (step installed) System.initial past s ∧
      past.map (fun moment => (own "a" moment.1).length) = [0, 0, 1] ∧ own "a" s = [] ∧
      (∀ moment ∈ past, ∀ principal call response s', moment.2 = .ask principal call →
        answer installed moment.1 principal call = some (response, s') →
        ∀ row ∈ response.shown, row.tenantId = principal.tenantId) ∧
      (KeptApart installed "a" past ↔ installed.placement = .query ∨ NeverNamed "a" past) := by
  obtain ⟨past, s, hlabels, run, hcheck⟩ := Run.of_check (step installed) System.initial
    foreignDelete (fun past s => past.map (fun moment => (own "a" moment.1).length) = [0, 0, 1] ∧
      (own "a" s).isEmpty) (by decide +kernel)
  have hcheck := of_decide_eq_true hcheck
  refine ⟨past, s, hlabels, run, hcheck.1, List.isEmpty_iff.mp hcheck.2,
    schedules_kept_apart run (by decide) ?_⟩
  intro moment hmem principal call hlabel
  have hmem : moment.2 ∈ foreignDelete := hlabels ▸ List.mem_map_of_mem hmem
  rw [hlabel] at hmem
  simp only [foreignDelete, List.mem_cons, List.not_mem_nil, or_false, reduceCtorEq,
    Label.ask.injEq, false_or] at hmem
  rcases hmem with ⟨rfl, -⟩ | ⟨rfl, -⟩ <;> decide

end SeoPlatform.Gateway.ScheduleCalls
