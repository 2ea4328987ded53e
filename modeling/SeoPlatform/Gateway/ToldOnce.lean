import SeoPlatform.Gateway.GhostDeliveries
import SeoPlatform.Orchestrator.OneAudit

namespace SeoPlatform.Gateway.ToldOnce

open SeoPlatform.Foundation.ConstrainedTable
open SeoPlatform.Foundation.TransitionSystem
open SeoPlatform.Gateway.ChannelCalls
open SeoPlatform.Gateway.GhostDeliveries
open SeoPlatform.Notifications
open SeoPlatform.Notifications.ChannelApi
open SeoPlatform.Notifications.Deliver
open SeoPlatform.Notifications.SendOnce
open SeoPlatform.Notifications.Worker (Phase)
open SeoPlatform.Orchestrator.OneAudit (plainUuid plainUuid_injective)
open SeoPlatform.Shared.Events
open SeoPlatform.Shared.Netguard

variable {deployment : Deployment} {s s' : System} {past : List (System × Label)}

/-- A caller of the channel's tenant asked for it, and its target was one this server may
reach. -/
def Created (past : List (System × Label)) (channel : Channel) : Prop :=
  ∃ moment ∈ past, ∃ k principal env cache projectId,
    moment.2 = .ask k principal
      (.store channel.kind channel.target channel.events projectId) env cache ∧
    principal.tenantId = channel.tenantId ∧
    (channel.kind = "webhook" → accepts env cache channel.target = true)

/-- The channel is for the event: its tenant's, and of a kind it asked for. -/
def Meant (past : List (System × Label)) (e : Envelope) (channel : Channel) : Prop :=
  channel.tenantId = e.tenantId ∧ wants channel e.type.name = true ∧ Created past channel

def MeantIn (past : List (System × Label)) : Phase → Prop
  | .listing _ => True
  | .claiming loop => ∀ channel ∈ loop.rest, Meant past loop.envelope channel
  | .sending loop channel | .finishing loop channel _ | .releasing loop channel =>
      ∀ other ∈ channel :: loop.rest, Meant past loop.envelope other

/-- Every channel was asked for, and every handler is at channels that its event is for. -/
structure Told (past : List (System × Label)) (s : System) : Prop where
  channels : ∀ row ∈ s.tables.channels.rows, Created past row.toChannel
  phases : ∀ n phase, s.workers n = some phase → MeantIn past phase

theorem created_mono {later : List (System × Label)} {channel : Channel}
    (h : Created past channel) : Created (past ++ later) channel := by
  obtain ⟨moment, hmem, hcreated⟩ := h
  exact ⟨moment, List.mem_append_left _ hmem, hcreated⟩

theorem meant_mono {later : List (System × Label)} {e : Envelope} {channel : Channel}
    (h : Meant past e channel) : Meant (past ++ later) e channel :=
  ⟨h.1, h.2.1, created_mono h.2.2⟩

theorem meantIn_mono {later : List (System × Label)} {phase : Phase} (h : MeantIn past phase) :
    MeantIn (past ++ later) phase := by
  cases phase with
  | listing => trivial
  | claiming => exact fun channel hmem => meant_mono (h channel hmem)
  | sending | finishing | releasing => exact fun channel hmem => meant_mono (h channel hmem)

section Work

variable {bell bell' : Worker.System} {n : Nat}

theorem meantIn_listed (hchannels : ∀ channel ∈ bell.channels, Created past channel)
    {e : Envelope} {baseUrl : String} {phase : Phase}
    (h : Worker.listed bell e baseUrl = some phase) : MeantIn past phase := by
  simp only [Worker.listed] at h
  split at h
  · cases h
    exact fun _ hmem => absurd hmem List.not_mem_nil
  · split at h
    · contradiction
    · cases h
      intro channel hmem
      obtain ⟨howned, hwants⟩ := List.mem_filter.mp hmem
      obtain ⟨hthere, htenant⟩ := List.mem_filter.mp howned
      exact ⟨of_decide_eq_true htenant, hwants, hchannels channel hthere⟩

/-- A handler goes from the channels of its list to the next of them. -/
theorem meantIn_turns (hchannels : ∀ channel ∈ bell.channels, Created past channel)
    (h : ∀ m phase, bell.workers m = some phase → MeantIn past phase) {label : Worker.Label}
    {next : Option Phase} (hturns : Worker.Turns bell label n next) {phase : Phase}
    (hphase : next = some phase) : MeantIn past phase := by
  cases hturns with
  | delivered =>
      cases hphase
      trivial
  | listed => exact meantIn_listed hchannels hphase
  | won hbefore hrest =>
      have hmeant := h n _ hbefore
      simp only [MeantIn, hrest] at hmeant
      cases hphase
      exact hmeant
  | lost hbefore hrest =>
      have hmeant := h n _ hbefore
      simp only [MeantIn, hrest] at hmeant
      cases hphase
      exact fun other hmem => hmeant other (List.mem_cons_of_mem _ hmem)
  | sent hbefore =>
      have hmeant := h n _ hbefore
      cases hphase
      exact hmeant
  | finished hbefore =>
      have hmeant := h n _ hbefore
      cases hphase
      unfold Worker.afterFinish
      split
      · exact fun other hmem => hmeant other (List.mem_cons_of_mem _ hmem)
      · split
        · exact hmeant
        · exact fun other hmem => hmeant other (List.mem_cons_of_mem _ hmem)
  | released hbefore =>
      have hmeant := h n _ hbefore
      cases hphase
      exact fun other hmem => hmeant other (List.mem_cons_of_mem _ hmem)
  | stopped => contradiction

theorem meantIn_step (hchannels : ∀ channel ∈ bell.channels, Created past channel)
    (h : ∀ m phase, bell.workers m = some phase → MeantIn past phase) {label : Worker.Label}
    (hlabel : ∀ channel, label ≠ .subscribe channel)
    (hstep : Worker.step bell label = some bell') {m : Nat} {phase : Phase}
    (hphase : bell'.workers m = some phase) : MeantIn past phase := by
  obtain ⟨n, next, hworkers, hturns⟩ := Worker.turns_of_step hlabel hstep
  rw [hworkers] at hphase
  rcases workers_update hphase with ⟨-, hnew⟩ | ⟨-, hold⟩
  · exact meantIn_turns hchannels h hturns hnew
  · exact h m phase hold

end Work

theorem effective_ne_subscribe {label : Worker.Label}
    (h : ∀ channel, label ≠ .subscribe channel) (channel : Channel) :
    effective s label ≠ .subscribe channel := by
  cases label with
  | claim => exact fun heq => by contradiction
  | subscribe | deliver | list | send | finish | release | acknowledge | crash => exact h channel

theorem told_step {label : Label} (h : Told past s) (hstep : step deployment s label = some s') :
    Told (past ++ [(s, label)]) s' := by
  have hphases : ∀ n phase, s.workers n = some phase → MeantIn (past ++ [(s, label)]) phase :=
    fun n phase hphase => meantIn_mono (h.phases n phase hphase)
  cases changes_of_step hstep with
  | still | tested | proceeded | aborted =>
      exact ⟨fun row hrow => created_mono (h.channels row hrow), hphases⟩
  | @stored k principal env cache request projectId channels hfree htenant haccepted hinsert =>
      refine ⟨fun row hrow => ?_, hphases⟩
      have hrows := (Table.insert_eq_some.mp hinsert).2
      rcases List.mem_append.mp (hrows ▸ hrow) with hold | hnew
      · exact created_mono (h.channels row hold)
      · rw [List.mem_singleton.mp hnew]
        refine ⟨_, List.mem_append_right _ (List.mem_singleton_self _), k, principal, env, cache,
          projectId, rfl, htenant.symm, fun hkind => ?_⟩
        have hkind' : request.kind = "webhook" := hkind
        simp only [ChannelRequest.accepted, hkind', if_true, Bool.and_eq_true] at haccepted
        exact haccepted.2
  | dropped =>
      exact ⟨fun row hrow => created_mono (h.channels row (Table.mem_delete.mp hrow).1), hphases⟩
  | worked hlabel hbell =>
      refine ⟨fun row hrow => created_mono (h.channels row hrow), fun n phase hphase => ?_⟩
      refine meantIn_step (fun channel hchannel => ?_) hphases ?_ hbell hphase
      · obtain ⟨row, hrow, rfl⟩ := List.mem_map.mp hchannel
        exact created_mono (h.channels row hrow)
      · exact effective_ne_subscribe hlabel

theorem told_of_run (run : Run (step deployment) .initial past s) : Told past s := by
  induction run with
  | refl => exact ⟨fun _ hrow => absurd hrow List.not_mem_nil, fun _ _ hphase => by contradiction⟩
  | snoc _ hstep ih => exact told_step ih hstep

/-- An event is told a channel at most once with success, and only one that a caller of the
event's tenant asked to be told of it. -/
theorem told_once (run : Run (step deployment) .initial past s)
    (hids : Function.Injective deployment.uuid) :
    (∀ pair, okSends (moments past) pair ≤ 1) ∧
    ∀ before t n outside cache after,
      past = before ++ (t, .work (.send n outside cache)) :: after →
      ∃ loop channel, t.workers n = some (.sending loop channel) ∧
        Meant before loop.envelope channel := by
  constructor
  · intro pair
    obtain ⟨own, ghost, haunted⟩ := haunted_of_run hids run
    rw [okSends_of_alike haunted.alike]
    rcases (safe_of_ghostRun haunted.run).once pair with hzero | ⟨hone, -⟩ <;> omega
  · rintro before t n outside cache after rfl
    obtain ⟨s', hbefore, hstep, -⟩ := run.split
    obtain ⟨bell, hbell, -⟩ := Option.map_eq_some_iff.mp hstep
    simp only [effective, Worker.step, Worker.stepSend] at hbell
    split at hbell
    · rename_i loop channel hphase
      exact ⟨loop, channel, hphase,
        (told_of_run hbefore).phases n _ hphase channel List.mem_cons_self⟩
    · contradiction

/-- A service whose projects and tenants are all known. -/
def installed : Deployment where
  uuid := plainUuid
  token := plainUuid
  knows _ _ := true
  takes _ := true
  readInt _ := some 50
  ownsProject _ _ := true
  placement := .query

/-- A channel goes while its first message is on the way. -/
def deletedMeanwhile : List Label :=
  [.ask 0 ⟨some "t"⟩ (.store "webhook" "https://hook.example.com/seo" [] none) surroundings [],
    .proceed 0 (answering 200) [], .work (.deliver 0 rendered), .work (.list 0 "" .done),
    .work (.claim 0 .done), .ask 1 ⟨some "t"⟩ (.destroy "") surroundings [],
    .work (.send 0 (answering 200) []), .work (.finish 0 .done), .work (.acknowledge 0)]

theorem told_once_deletedMeanwhile :
    ∃ past s, past.map Prod.snd = deletedMeanwhile ∧
      Run (step installed) System.initial past s ∧ okSends (moments past) ("", "e") = 1 ∧
      (∀ pair, okSends (moments past) pair ≤ 1) ∧
      ∀ before t n outside cache after,
        past = before ++ (t, .work (.send n outside cache)) :: after →
        ∃ loop channel, t.workers n = some (.sending loop channel) ∧
          Meant before loop.envelope channel := by
  obtain ⟨past, s, hlabels, run, hcheck⟩ := Run.of_check (step installed) .initial
    deletedMeanwhile (fun past _ => okSends (moments past) ("", "e") = 1) (by decide +kernel)
  exact ⟨past, s, hlabels, run, of_decide_eq_true hcheck, told_once run plainUuid_injective⟩

end SeoPlatform.Gateway.ToldOnce
