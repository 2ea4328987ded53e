import SeoPlatform.Gateway.ToldOnce

namespace SeoPlatform.Gateway.Unsubscribed

open SeoPlatform.Foundation.ConstrainedTable
open SeoPlatform.Foundation.TransitionSystem
open SeoPlatform.Gateway.ChannelCalls
open SeoPlatform.Gateway.GhostDeliveries
open SeoPlatform.Gateway.ServiceClient
open SeoPlatform.Gateway.ToldOnce
open SeoPlatform.Notifications
open SeoPlatform.Notifications.ChannelApi
open SeoPlatform.Notifications.Channels (Result)
open SeoPlatform.Notifications.Deliver (Channel)
open SeoPlatform.Notifications.SendOnce
open SeoPlatform.Notifications.Store
open SeoPlatform.Notifications.Worker (Phase)
open SeoPlatform.Orchestrator.OneAudit (plainUuid_injective)
open SeoPlatform.Shared.Events (Envelope)
open SeoPlatform.Shared.Netguard

variable {deployment : Deployment} {s s' t : System} {id : String}
  {past : List (System × Label)}

/-- A worker is about to send to the channel. -/
def sending (s : System) (n : Nat) (id : String) : Bool :=
  match s.workers n with
  | some (.sending _ channel) => channel.id = id
  | _ => false

/-- A call is about to try the channel. -/
def testing (s : System) (k : Nat) (id : String) : Bool :=
  match s.requests k with
  | some (_, .testing row) => row.id = id
  | _ => false

/-- The worker sends to the channel at this moment. -/
def sendsTo (n : Nat) (id : String) (moment : System × Label) : Bool :=
  match moment.2 with
  | .work (.send m _ _) => m = n && sending moment.1 n id
  | _ => false

/-- The call tries the channel at this moment. -/
def testsTo (k : Nat) (id : String) (moment : System × Label) : Bool :=
  match moment.2 with
  | .proceed j _ _ => j = k && testing moment.1 k id
  | _ => false

/-- A channel that was there, and is not there any more. -/
structure Gone (deployment : Deployment) (s : System) (id : String) : Prop where
  absent : s.hasChannel id = false
  drawn : ∃ k < s.tables.drawn, id = deployment.uuid k

theorem gone_of_step (hids : Function.Injective deployment.uuid) (h : Gone deployment s id)
    {label : Label} (hstep : step deployment s label = some s') : Gone deployment s' id := by
  obtain ⟨habsent, k, hk, hid⟩ := h
  cases changes_of_step hstep with
  | still hdrawn => exact ⟨habsent, k, hk.trans_le hdrawn, hid⟩
  | tested | proceeded | aborted | worked => exact ⟨habsent, k, hk, hid⟩
  | stored _ _ _ hinsert =>
      refine ⟨?_, k, Nat.lt_succ_of_lt hk, hid⟩
      have hrows := (Table.insert_eq_some.mp hinsert).2
      rw [Bool.eq_false_iff]
      intro hthere
      obtain ⟨row, hrow, hsame⟩ := hasChannel_iff.mp hthere
      rcases List.mem_append.mp (hrows ▸ hrow) with hold | hnew
      · rw [hasChannel_iff.mpr ⟨row, hold, hsame⟩] at habsent
        contradiction
      · rw [List.mem_singleton.mp hnew] at hsame
        exact Nat.ne_of_gt hk (hids (hsame.trans hid))
  | dropped =>
      refine ⟨?_, k, hk, hid⟩
      rw [Bool.eq_false_iff]
      intro hthere
      obtain ⟨row, hrow, hsame, -⟩ := hasChannel_drop.mp hthere
      rw [hasChannel_iff.mpr ⟨row, hrow, hsame⟩] at habsent
      contradiction

section Workers

variable {bell : Worker.System} {m n : Nat} {next : Option Phase}

theorem sending_update (hworkers : bell.workers = Function.update s.workers m next)
    (hnext : ∀ loop channel, next = some (.sending loop channel) → channel.id ≠ id)
    (h : sending (s.rung bell) n id = true) : n ≠ m ∧ sending s n id = true := by
  unfold sending at h ⊢
  rw [show (s.rung bell).workers = bell.workers from rfl, hworkers] at h
  rcases eq_or_ne n m with rfl | hn
  · rw [Function.update_self] at h
    cases next with
    | none => contradiction
    | some phase =>
        cases phase with
        | sending loop channel => exact absurd (of_decide_eq_true h) (hnext loop channel rfl)
        | listing | claiming | finishing | releasing => contradiction
  · rw [Function.update_of_ne hn] at h
    exact ⟨hn, h⟩

theorem not_sending_of_listed {e : Envelope} {baseUrl : String} {loop : Worker.Loop}
    {channel : Channel} : Worker.listed bell e baseUrl ≠ some (.sending loop channel) := by
  intro h
  simp only [Worker.listed] at h
  split at h
  · cases h
  · split at h <;> cases h

theorem not_sending_of_afterFinish {loop loop' : Worker.Loop} {channel channel' : Channel}
    {result : Result} : Worker.afterFinish loop channel result ≠ .sending loop' channel' := by
  unfold Worker.afterFinish
  split
  · exact fun h => by cases h
  · split <;> exact fun h => by cases h

/-- No worker turns to a channel that is gone: its claim is refused. -/
theorem ne_of_turns (habsent : s.hasChannel id = false) {label : Worker.Label}
    (hturns : Worker.Turns s.bell (effective s label) m next) {loop : Worker.Loop}
    {channel : Channel} (hnext : next = some (.sending loop channel)) : channel.id ≠ id := by
  generalize hlabel : effective s label = turned at hturns
  cases hturns with
  | @won _ _ loop channel rest hphase hrest hdone hwon =>
      cases hnext
      rintro rfl
      cases label with
      | claim k answer =>
          obtain ⟨rfl, hgiven⟩ := Worker.Label.claim.inj hlabel
          have hphase' : s.workers k = some (.claiming loop) := hphase
          have hnone : delivery? s.tables.deliveries channel.id loop.envelope.id = none :=
            claim_wins_iff.mp hwon
          have hviolates : violates s k = true := by
            simp [violates, hphase', hrest, habsent, hnone]
          rw [if_pos hviolates, hdone] at hgiven
          contradiction
      | subscribe | deliver | list | send | finish | release | acknowledge | crash => cases hlabel
  | listed => exact absurd hnext not_sending_of_listed
  | finished => exact absurd (Option.some.inj hnext) not_sending_of_afterFinish
  | delivered | lost | sent | released | stopped => cases hnext

/-- Who sends to a channel that is gone was about to, and has not done so. -/
theorem sending_of_worked (habsent : s.hasChannel id = false) {label : Worker.Label}
    (hlabel : ∀ channel, label ≠ .subscribe channel)
    (hstep : Worker.step s.bell (effective s label) = some bell)
    (h : sending (s.rung bell) n id = true) :
    sending s n id = true ∧ sendsTo n id (s, .work label) = false := by
  obtain ⟨m, next, hworkers, hturns⟩ :=
    Worker.turns_of_step (effective_ne_subscribe hlabel) hstep
  have hkept := sending_update hworkers (fun _ _ hnext => ne_of_turns habsent hturns hnext) h
  refine ⟨hkept.2, ?_⟩
  cases label with
  | send k outside cache =>
      have hown : k = m := by
        change Worker.Turns s.bell (.send k outside cache) m next at hturns
        cases hturns with
        | sent => rfl
        | stopped hsend => exact hsend _ _ _ rfl
      simp [sendsTo, hown, Ne.symm hkept.1]
  | subscribe | deliver | list | claim | finish | release | acknowledge | crash => rfl

end Workers

theorem sending_of_step (h : s.hasChannel id = false) {label : Label}
    (hstep : step deployment s label = some s') {n : Nat} (hsending : sending s' n id = true) :
    sending s n id = true ∧ sendsTo n id (s, label) = false := by
  cases changes_of_step hstep with
  | still | stored | tested | proceeded | aborted => exact ⟨hsending, rfl⟩
  | dropped hdrops =>
      refine ⟨hsending, ?_⟩
      cases hdrops <;> rfl
  | worked hlabel hbell => exact sending_of_worked h hlabel hbell hsending

theorem testing_setRequest {k j : Nat} {request : Option (Principal × Pending)}
    (hrequest : ∀ principal row, request = some (principal, .testing row) → row.id ≠ id)
    (h : testing (s.setRequest j request) k id = true) : k ≠ j ∧ testing s k id = true := by
  unfold testing at h ⊢
  rw [show (s.setRequest j request).requests = Function.update s.requests j request from rfl] at h
  rcases eq_or_ne k j with rfl | hk
  · rw [Function.update_self] at h
    cases request with
    | none => contradiction
    | some request =>
        obtain ⟨principal, pending⟩ := request
        cases pending with
        | testing row => exact absurd (of_decide_eq_true h) (hrequest principal row rfl)
        | reading => contradiction
  · rw [Function.update_of_ne hk] at h
    exact ⟨hk, h⟩

theorem testing_of_step (habsent : s.hasChannel id = false) {label : Label}
    (hstep : step deployment s label = some s') {k : Nat} (h : testing s' k id = true) :
    testing s k id = true ∧ testsTo k id (s, label) = false := by
  cases changes_of_step hstep with
  | still | worked => exact ⟨h, rfl⟩
  | dropped hdrops =>
      refine ⟨h, ?_⟩
      cases hdrops <;> rfl
  | stored => exact ⟨(testing_setRequest (by simp) h).2, rfl⟩
  | @tested j principal env cache id' row hfree hrow =>
      refine ⟨(testing_setRequest (fun principal' row' heq hid => ?_) h).2, rfl⟩
      cases heq
      rw [hasChannel_iff.mpr ⟨row, List.mem_of_find?_eq_some hrow, hid⟩] at habsent
      contradiction
  | proceeded =>
      have hother := testing_setRequest (by simp) h
      exact ⟨hother.2, by simp [testsTo, Ne.symm hother.1]⟩
  | aborted => exact ⟨(testing_setRequest (by simp) h).2, rfl⟩

theorem sending_of_sendsTo {n : Nat} {label : Label} (h : sendsTo n id (s, label) = true) :
    sending s n id = true := by
  unfold sendsTo at h
  split at h
  · exact (Bool.and_eq_true_iff.mp h).2
  · contradiction

theorem testing_of_testsTo {k : Nat} {label : Label} (h : testsTo k id (s, label) = true) :
    testing s k id = true := by
  unfold testsTo at h
  split at h
  · exact (Bool.and_eq_true_iff.mp h).2
  · contradiction

/-- Who did something at a moment was about to, and is not any more. -/
theorem countP_snoc_le {p : System × Label → Bool} {moment : System × Label} {before now : Bool}
    {bound : Nat} (hcount : past.countP p + before.toNat ≤ bound)
    (hstays : now = true → before = true ∧ p moment = false)
    (hfrom : p moment = true → before = true) :
    (past ++ [moment]).countP p + now.toNat ≤ bound := by
  rw [List.countP_append, List.countP_singleton]
  have hnow : (if p moment = true then 1 else 0) + now.toNat ≤ before.toNat := by
    cases now with
    | true =>
        obtain ⟨rfl, hnot⟩ := hstays rfl
        simp [hnot]
    | false =>
        split
        · rw [hfrom ‹_›]
          rfl
        · simp
  omega

/-- From where a channel is gone on, it is sent to by those who were at it, once each. -/
theorem spared_of_run (hids : Function.Injective deployment.uuid) (hgone : Gone deployment t id)
    (run : Run (step deployment) t past s) :
    Gone deployment s id ∧ (∀ moment ∈ past, moment.1.hasChannel id = false) ∧
      (∀ n, past.countP (sendsTo n id) + (sending s n id).toNat ≤ (sending t n id).toNat) ∧
      ∀ k, past.countP (testsTo k id) + (testing s k id).toNat ≤ (testing t k id).toNat := by
  induction run with
  | refl => exact ⟨hgone, fun _ hmem => absurd hmem List.not_mem_nil, fun _ => by simp,
      fun _ => by simp⟩
  | @snoc past s s' label _ hstep ih =>
      obtain ⟨hgone', habsent, hsends, htests⟩ := ih
      refine ⟨gone_of_step hids hgone' hstep, fun moment hmem => ?_, fun n => ?_, fun k => ?_⟩
      · rcases List.mem_append.mp hmem with hold | hnew
        · exact habsent moment hold
        · rw [List.mem_singleton.mp hnew]
          exact hgone'.absent
      · exact countP_snoc_le (hsends n) (sending_of_step hgone'.absent hstep) sending_of_sendsTo
      · exact countP_snoc_le (htests k) (testing_of_step hgone'.absent hstep) testing_of_testsTo

/-- A channel that a caller was told is deleted is gone. -/
theorem gone_of_deleted {own : List (Worker.System × Worker.Label)} {ghost : Worker.System}
    (h : Haunted deployment past t own ghost) {k : Nat} {principal : Principal}
    {env : Surroundings} {cache : Cache} {response : Response Entry}
    (htold : told deployment t (.ask k principal (.destroy id) env cache) =
      some (principal, response)) (hstatus : response.status = 204)
    (hstep : step deployment t (.ask k principal (.destroy id) env cache) = some s) :
    Gone deployment s id ∧ s.workers = t.workers ∧ s.requests = t.requests := by
  simp only [told, arrive, requestOf, serve_delete] at htold
  cases htold
  simp only [step] at hstep
  split at hstep
  · contradiction
  · simp only [arrive, requestOf, serve_delete] at hstep
    cases hrow : getChannel t.tables id (deleteScope deployment.placement principal) with
    | none =>
        simp only [deleteChannel, hrow] at hstatus
        simp [ChannelCalls.relayed, usableOr404] at hstatus
    | some row =>
        simp only [deleteChannel, hrow] at hstep
        cases hstep
        have hmem := List.mem_of_find?_eq_some hrow
        have hreached := List.find?_some hrow
        have hid : row.id = id := by
          simp only [Row.reached, Bool.and_eq_true, decide_eq_true_eq] at hreached
          exact hreached.1
        refine ⟨⟨?_, ?_⟩, rfl, rfl⟩
        · rw [Bool.eq_false_iff]
          intro hthere
          obtain ⟨other, hother, hsame, hkept⟩ := hasChannel_drop.mp hthere
          rw [eq_of_sameChannel hother hmem (hsame.trans hid.symm), hreached] at hkept
          contradiction
        · obtain ⟨k, hk, hdrawn⟩ := h.drawn.channels row hmem
          exact ⟨k, hk, hid.symm.trans hdrawn⟩

/-- A caller is told at this moment that the channel is deleted. -/
def Deleted (deployment : Deployment) (id : String) (moment : System × Label) : Prop :=
  ∃ k principal env cache response,
    moment.2 = .ask k principal (.destroy id) env cache ∧
    told deployment moment.1 moment.2 = some (principal, response) ∧ response.status = 204

/-- Once a caller was told that a channel is deleted, the channel is not there any more, and is
sent to only by who was about to, once each. -/
theorem silent_once_deleted (hids : Function.Injective deployment.uuid)
    (run : Run (step deployment) .initial past s) :
    ∀ before moment after, past = before ++ moment :: after →
      Deleted deployment id moment →
      s.hasChannel id = false ∧ (∀ later ∈ after, later.1.hasChannel id = false) ∧
        (∀ n, after.countP (sendsTo n id) ≤ (sending moment.1 n id).toNat) ∧
        ∀ k, after.countP (testsTo k id) ≤ (testing moment.1 k id).toNat := by
  rintro before ⟨t, label⟩ after rfl ⟨k, principal, env, cache, response, hlabel, htold, hstatus⟩
  obtain rfl : label = .ask k principal (.destroy id) env cache := hlabel
  obtain ⟨t', hbefore, hstep, hafter⟩ := run.split
  obtain ⟨own, ghost, haunted⟩ := haunted_of_run hids hbefore
  obtain ⟨hgone, hworkers, hrequests⟩ := gone_of_deleted haunted htold hstatus hstep
  obtain ⟨hend, habsent, hsends, htests⟩ := spared_of_run hids hgone hafter
  have hsending : ∀ n, sending t' n id = sending t n id := fun n => by
    simp only [sending, hworkers]
  have htesting : ∀ k, testing t' k id = testing t k id := fun k => by
    simp only [testing, hrequests]
  exact ⟨hend.absent, habsent, fun n => hsending n ▸ (Nat.le_add_right _ _).trans (hsends n),
    fun k => htesting k ▸ (Nat.le_add_right _ _).trans (htests k)⟩

/-- The message that was on the way is the last one. -/
theorem silent_once_deleted_deletedMeanwhile :
    ∃ before moment after s,
      (before ++ moment :: after).map Prod.snd = deletedMeanwhile ∧
      Run (step installed) System.initial (before ++ moment :: after) s ∧
      Deleted installed "" moment ∧ after.countP (sendsTo 0 "") = 1 ∧
      s.hasChannel "" = false ∧ (∀ later ∈ after, later.1.hasChannel "" = false) ∧
        (∀ n, after.countP (sendsTo n "") ≤ (sending moment.1 n "").toNat) ∧
        ∀ k, after.countP (testsTo k "") ≤ (testing moment.1 k "").toNat := by
  obtain ⟨past, s, hlabels, run, hcheck⟩ := Run.of_check (step installed) .initial
    deletedMeanwhile
    (fun past _ =>
      match past.drop 5 with
      | moment :: after =>
          (told installed moment.1 moment.2).any (fun answer =>
            answer.1.tenantId == some "t" && answer.2.status == 204) &&
            after.countP (sendsTo 0 "") == 1
      | [] => false) (by decide +kernel)
  have hsplit := hlabels.trans (List.take_append_drop 5 deletedMeanwhile).symm
  obtain ⟨before, rest, rfl, hbefore, hrest⟩ := List.map_eq_append_iff.mp hsplit
  obtain ⟨moment, after, rfl, hmoment, -⟩ := List.map_eq_cons_iff.mp hrest
  have hlength : before.length = 5 := by
    rw [← List.length_map Prod.snd, hbefore]
    rfl
  simp only [List.drop_left' hlength, Bool.and_eq_true, beq_iff_eq] at hcheck
  obtain ⟨hanswered, honce⟩ := hcheck
  obtain ⟨⟨⟨tenant⟩, response⟩, htold, hanswer⟩ := (Option.any_eq_true _ _).mp hanswered
  simp only [Bool.and_eq_true, beq_iff_eq] at hanswer
  obtain ⟨rfl, hstatus⟩ := hanswer
  have hdeleted : Deleted installed "" moment :=
    ⟨1, _, _, _, response, hmoment, htold, hstatus⟩
  exact ⟨before, moment, after, s, hlabels, run, hdeleted, honce,
    silent_once_deleted plainUuid_injective run before moment after rfl hdeleted⟩

end SeoPlatform.Gateway.Unsubscribed
