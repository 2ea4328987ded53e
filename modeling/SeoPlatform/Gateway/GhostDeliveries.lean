import Mathlib.Data.List.Forall2
import SeoPlatform.Gateway.ChannelCalls
import SeoPlatform.Notifications.SendOnce

namespace SeoPlatform.Gateway.GhostDeliveries

open SeoPlatform.Foundation.ConstrainedTable
open SeoPlatform.Foundation.TransitionSystem
open SeoPlatform.Gateway.ChannelCalls
open SeoPlatform.Notifications
open SeoPlatform.Notifications.ChannelApi
open SeoPlatform.Notifications.SendOnce
open SeoPlatform.Notifications.Store
open SeoPlatform.Notifications.Worker (Answer Loop Pair Phase pairOf)

variable {deployment : Deployment} {s s' : System} {ghost ghost' : Worker.System}

/-- Workers on tables in which the deliveries of a channel stay when it goes. -/
inductive GhostRun : List (Worker.System × Worker.Label) → Worker.System → Prop
  | start : GhostRun [] .initial
  | work {own : List (Worker.System × Worker.Label)} {ghost ghost' : Worker.System}
      {label : Worker.Label} (run : GhostRun own ghost)
      (hstep : Worker.step ghost label = some ghost') : GhostRun (own ++ [(ghost, label)]) ghost'
  | relist {own : List (Worker.System × Worker.Label)} {ghost : Worker.System}
      (run : GhostRun own ghost) (channels : List Deliver.Channel) :
      GhostRun own { ghost with channels := channels }

theorem safe_of_ghostRun {own : List (Worker.System × Worker.Label)} (run : GhostRun own ghost) :
    Safe own ghost := by
  induction run with
  | start => exact safe_initial
  | work _ hstep ih => exact safe_step ih hstep
  | relist _ channels ih => exact ⟨ih.row, ih.alone, ih.once, ih.own⟩

/-- The tables with the ghosts hold the same channels, and the same deliveries of these. -/
structure Mirrors (s : System) (ghost : Worker.System) : Prop where
  workers : ghost.workers = s.workers
  channels : ghost.channels = s.bell.channels
  rows : ∀ pair, s.bell.row pair = if s.hasChannel pair.1 then ghost.row pair else none

theorem mirrors_initial : Mirrors .initial .initial where
  workers := rfl
  channels := rfl
  rows _ := rfl

section Work

theorem mirrors_update (h : Mirrors s ghost) {n : Nat} {next : Option Phase}
    {bell : Worker.System} (hworkers : bell.workers = Function.update s.workers n next)
    (hchannels : ghost'.channels = ghost.channels)
    (hghost : ghost'.workers = Function.update ghost.workers n next)
    (hrows : ∀ pair, bell.row pair = if s.hasChannel pair.1 then ghost'.row pair else none) :
    Mirrors (s.rung bell) ghost' where
  workers := by
    rw [hghost, h.workers]
    exact hworkers.symm
  channels := hchannels.trans h.channels
  rows := hrows

/-- A worker goes on, and the tables stay. -/
theorem mirrors_setWorker (h : Mirrors s ghost) (n : Nat) (next : Option Phase) :
    Mirrors (s.rung (s.bell.setWorker n next)) (ghost.setWorker n next) :=
  mirrors_update h rfl rfl rfl h.rows

/-- Both tables are written to alike. -/
theorem mirrors_answered (h : Mirrors s ghost) {n : Nat} {answer : Answer} {next : Phase}
    {deliveries deliveries' : Deliveries}
    (hrows : answer ≠ .refused → ∀ pair : Pair, delivery? deliveries pair.1 pair.2 =
      if s.hasChannel pair.1 then delivery? deliveries' pair.1 pair.2 else none) :
    Mirrors (s.rung (s.bell.answered n answer deliveries next))
      (ghost.answered n answer deliveries' next) := by
  refine mirrors_update h rfl rfl rfl fun pair => ?_
  simp only [Worker.System.row, Worker.System.answered]
  split
  · exact h.rows pair
  · rename_i hanswer
    exact hrows hanswer pair

/-- Both tables answer a claim the same way, as far as the handler goes on by it. -/
theorem mirrors_claim (h : Mirrors s ghost) {n : Nat} {answer : Answer} {bell : Worker.System}
    (hstep : Worker.stepClaim s.bell n (if violates s n then .refused else answer) = some bell) :
    ∃ ghost', Worker.stepClaim ghost n (if violates s n then .refused else answer) =
      some ghost' ∧ Mirrors (s.rung bell) ghost' := by
  have hworkers : ghost.workers = s.bell.workers := h.workers
  simp only [Worker.stepClaim, hworkers] at hstep ⊢
  split at hstep
  · rename_i loop hphase
    split at hstep
    · contradiction
    · rename_i channel rest hrest
      cases hstep
      refine ⟨_, rfl, ?_⟩
      have hrow : ∀ pair : Pair, delivery? s.bell.deliveries pair.1 pair.2 = _ := h.rows
      cases hhas : s.hasChannel channel.id with
      | true =>
          have hwon : (claim s.bell.deliveries channel.id loop.envelope.id
              loop.envelope.type.name).1 = (claim ghost.deliveries channel.id loop.envelope.id
              loop.envelope.type.name).1 := by
            rw [Bool.eq_iff_iff, claim_wins_iff, claim_wins_iff,
              hrow (channel.id, loop.envelope.id), hhas, if_pos rfl, Worker.System.row]
          rw [hwon]
          refine mirrors_answered h fun _ pair => ?_
          rw [delivery?_claim, delivery?_claim, hwon, hrow pair, Worker.System.row]
          split
          · rename_i hpair
            rw [hpair.2.1, hhas, if_pos rfl]
          · rfl
      | false =>
          have hviolates : violates s n = true := by
            have hnone : delivery? s.tables.deliveries channel.id loop.envelope.id = none := by
              rw [show delivery? s.tables.deliveries channel.id loop.envelope.id = _ from
                h.rows (channel.id, loop.envelope.id), hhas]
              rfl
            have hphase' : s.workers n = some (.claiming loop) := hphase
            simp [violates, hphase', hrest, hhas, hnone]
          rw [if_pos hviolates]
          exact mirrors_update h rfl rfl rfl h.rows
  · contradiction

theorem mirrors_worked (h : Mirrors s ghost) {label : Worker.Label} {bell : Worker.System}
    (hlabel : ∀ channel, label ≠ .subscribe channel)
    (hstep : Worker.step s.bell (effective s label) = some bell) :
    ∃ ghost', Worker.step ghost (effective s label) = some ghost' ∧
      Mirrors (s.rung bell) ghost' := by
  have hworkers : ghost.workers = s.bell.workers := h.workers
  cases label with
  | subscribe channel => exact absurd rfl (hlabel channel)
  | claim n answer => exact mirrors_claim h hstep
  | deliver n e =>
      simp only [effective, Worker.step, hworkers] at hstep ⊢
      split at hstep
      · rename_i hidle
        cases hstep
        exact ⟨_, if_pos hidle, mirrors_setWorker h n _⟩
      · contradiction
  | list n baseUrl answer =>
      simp only [effective, Worker.step, Worker.stepList, hworkers] at hstep ⊢
      split at hstep
      · rename_i e hphase
        cases hstep
        refine ⟨_, rfl, ?_⟩
        have hlisted : Worker.listed ghost e baseUrl = Worker.listed s.bell e baseUrl := by
          simp only [Worker.listed, h.channels]
        rw [hlisted]
        exact mirrors_setWorker h n _
      · contradiction
  | send n outside cache =>
      simp only [effective, Worker.step, Worker.stepSend, hworkers] at hstep ⊢
      split at hstep
      · split at hstep
        · cases hstep
          exact ⟨_, rfl, mirrors_setWorker h n _⟩
        · cases hstep
          exact ⟨_, rfl, mirrors_setWorker h n _⟩
      · contradiction
  | finish n answer =>
      simp only [effective, Worker.step, Worker.stepFinish, hworkers] at hstep ⊢
      split at hstep
      · rename_i loop channel result hphase
        cases hstep
        refine ⟨_, rfl, mirrors_answered h fun _ pair => ?_⟩
        have hrow : delivery? s.bell.deliveries pair.1 pair.2 = _ := h.rows pair
        rw [delivery?_finish, delivery?_finish, hrow, Worker.System.row]
        cases s.hasChannel pair.1 <;> rfl
      · contradiction
  | release n answer =>
      simp only [effective, Worker.step, Worker.stepRelease, hworkers] at hstep ⊢
      split at hstep
      · rename_i loop channel hphase
        cases hstep
        refine ⟨_, rfl, mirrors_answered h fun _ pair => ?_⟩
        have hrow : delivery? s.bell.deliveries pair.1 pair.2 = _ := h.rows pair
        rw [delivery?_release, delivery?_release, hrow, Worker.System.row]
        cases s.hasChannel pair.1 <;> simp
      · contradiction
  | acknowledge n =>
      simp only [effective, Worker.step, Worker.stepAcknowledge, hworkers] at hstep ⊢
      split at hstep
      · split at hstep
        · rename_i hrest
          cases hstep
          exact ⟨_, if_pos hrest, mirrors_update h rfl rfl rfl h.rows⟩
        · contradiction
      · contradiction
  | crash n =>
      cases hstep
      exact ⟨_, rfl, mirrors_setWorker h n _⟩

theorem claiming_of_wins {m n : Nat} {answer : Answer} {pair : Pair}
    (h : Worker.wins ghost (.claim m answer) = some (n, pair)) :
    answer ≠ .refused ∧ ∃ loop channel rest, ghost.workers m = some (.claiming loop) ∧
      loop.rest = channel :: rest ∧ pairOf loop channel = pair := by
  simp only [Worker.wins] at h
  split at h
  · rename_i loop hphase
    split at h
    · contradiction
    · rename_i channel rest hrest
      split at h
      · rename_i hwon
        simp only [Bool.and_eq_true, decide_eq_true_eq] at hwon
        exact ⟨hwon.2, loop, channel, rest, hphase, hrest,
          congrArg Prod.snd (Option.some.inj h)⟩
      · contradiction
  · contradiction

/-- A delivery appears for a channel that is there. -/
theorem hasChannel_of_appears (h : Mirrors s ghost) {label : Worker.Label}
    (hstep : Worker.step ghost (effective s label) = some ghost') {pair : Pair}
    (hrow : ghost'.row pair ≠ none) : ghost.row pair ≠ none ∨ s.hasChannel pair.1 = true := by
  cases effect_of_step hstep with
  | quiet hsame | sent _ _ _ _ _ hsame =>
      rw [hsame] at hrow
      exact .inl hrow
  | finished _ _ _ _ _ _ _ hsame => exact .inl fun hnone => hrow ((hsame pair).mpr hnone)
  | released _ loop channel answer hlabel hbefore hsame =>
      by_cases hpair : pair = pairOf loop channel
      · subst hpair
        rw [hlabel] at hstep
        simp only [Worker.step, Worker.stepRelease, hbefore] at hstep
        cases hstep
        simp only [Worker.System.row, Worker.System.answered] at hrow
        split at hrow
        · exact .inl hrow
        · rw [pairOf, delivery?_release, if_pos ⟨rfl, rfl⟩] at hrow
          contradiction
      · rw [hsame pair hpair] at hrow
        exact .inl hrow
  | claimed n loop channel answer hlabel _ hsame _ _ hwins =>
      by_cases hpair : pair = pairOf loop channel
      · subst hpair
        right
        by_contra hhas
        rw [Bool.not_eq_true] at hhas
        cases label with
        | claim m given =>
            obtain ⟨hanswer, loop', channel', rest, hphase, hrest, hpair⟩ := claiming_of_wins hwins
            obtain ⟨hid, he⟩ := Prod.mk.inj hpair
            have hviolates : violates s m = true := by
              have hphase' : s.workers m = some (.claiming loop') := h.workers ▸ hphase
              have hnone : delivery? s.tables.deliveries channel'.id loop'.envelope.id = none := by
                rw [show delivery? s.tables.deliveries channel'.id loop'.envelope.id = _ from
                  h.rows (channel'.id, loop'.envelope.id), hid]
                exact if_neg (Bool.eq_false_iff.mp hhas)
              have hhas' : s.hasChannel channel'.id = false := hid ▸ hhas
              simp [violates, hphase', hrest, hhas', hnone]
            exact hanswer (if_pos hviolates)
        | subscribe | deliver | list | send | finish | release | acknowledge | crash =>
            contradiction
      · rw [hsame pair hpair] at hrow
        exact .inl hrow

end Work

section Channels

theorem hasChannel_iff {id : String} :
    s.hasChannel id = true ↔ ∃ row ∈ s.tables.channels.rows, row.id = id := by
  simp [System.hasChannel]

theorem eq_of_sameChannel {channels : ChannelTable} {a b : Row} (ha : a ∈ channels.rows)
    (hb : b ∈ channels.rows) (hid : a.id = b.id) : a = b :=
  channels.eq_of_clash (fun _ _ h => h.symm) ha hb hid

theorem hasChannel_drop {gone : Row → Bool} {id : String} :
    System.hasChannel { s with tables := s.tables.drop gone } id = true ↔
      ∃ row ∈ s.tables.channels.rows, row.id = id ∧ gone row = false := by
  rw [hasChannel_iff]
  constructor
  · rintro ⟨row, hrow, hid⟩
    obtain ⟨hmem, hgone⟩ := Table.mem_delete.mp hrow
    exact ⟨row, hmem, hid, hgone⟩
  · rintro ⟨row, hrow, hid, hgone⟩
    exact ⟨row, Table.mem_delete.mpr ⟨hrow, hgone⟩, hid⟩

theorem delivery?_drop {tables : Tables} {gone : Row → Bool} (pair : Pair) :
    delivery? (tables.drop gone).deliveries pair.1 pair.2 =
      if tables.channels.rows.any (fun row => row.id = pair.1 && gone row) then none
      else delivery? tables.deliveries pair.1 pair.2 := by
  unfold delivery? Tables.drop Table.delete
  rw [List.find?_filter]
  split
  · rename_i hany
    apply List.find?_eq_none.mpr
    intro delivery _ hboth
    obtain ⟨hkept, hof⟩ := of_decide_eq_true hboth
    have hid : delivery.channelId = pair.1 := by
      simp only [Delivery.isOf, Bool.and_eq_true, decide_eq_true_eq] at hof
      exact hof.1
    simp only [hid, hany] at hkept
    contradiction
  · rename_i hany
    congr 1
    funext delivery
    by_cases hof : delivery.isOf pair.1 pair.2 = true
    · have hid : delivery.channelId = pair.1 := by
        simp only [Delivery.isOf, Bool.and_eq_true, decide_eq_true_eq] at hof
        exact hof.1
      simp [hof, hid, hany]
    · simp [hof]

theorem mirrors_dropped (h : Mirrors s ghost) (gone : Row → Bool) :
    Mirrors { s with tables := s.tables.drop gone }
      { ghost with
        channels := (System.bell { s with tables := s.tables.drop gone }).channels } where
  workers := h.workers
  channels := rfl
  rows pair := by
    change delivery? (s.tables.drop gone).deliveries pair.1 pair.2 =
      if System.hasChannel { s with tables := s.tables.drop gone } pair.1 then ghost.row pair
      else none
    have hrow : delivery? s.tables.deliveries pair.1 pair.2 = _ := h.rows pair
    rw [delivery?_drop, hrow]
    cases hhas : s.hasChannel pair.1 with
    | false =>
        have hgone : System.hasChannel { s with tables := s.tables.drop gone } pair.1 = false := by
          rw [Bool.eq_false_iff]
          intro hthere
          obtain ⟨row, hmem, hid, -⟩ := hasChannel_drop.mp hthere
          rw [hasChannel_iff.mpr ⟨row, hmem, hid⟩] at hhas
          contradiction
        rw [hgone]
        split <;> rfl
    | true =>
        obtain ⟨row, hmem, hid⟩ := hasChannel_iff.mp hhas
        have hany : s.tables.channels.rows.any (fun other => other.id = pair.1 && gone other) =
            gone row := by
          rw [Bool.eq_iff_iff, List.any_eq_true]
          constructor
          · rintro ⟨other, hother, hboth⟩
            obtain ⟨hsame, hgone⟩ := Bool.and_eq_true_iff.mp hboth
            rwa [eq_of_sameChannel hother hmem ((of_decide_eq_true hsame).trans hid.symm)] at hgone
          · exact fun hgone => ⟨row, hmem, by simp [hid, hgone]⟩
        have hkept : System.hasChannel { s with tables := s.tables.drop gone } pair.1 =
            !gone row := by
          rw [Bool.eq_iff_iff, hasChannel_drop, Bool.not_eq_true']
          constructor
          · rintro ⟨other, hother, hsame, hgone⟩
            rwa [eq_of_sameChannel hother hmem (hsame.trans hid.symm)] at hgone
          · exact fun hgone => ⟨row, hmem, hid, hgone⟩
        rw [hany, hkept]
        cases gone row <;> rfl

/-- A new channel has no deliveries, not even of a channel that is gone. -/
theorem mirrors_stored (h : Mirrors s ghost) {channels : ChannelTable} {row : Row} (drawn : Nat)
    (hinsert : s.tables.channels.insert row = some channels)
    (hnew : ∀ pair, ghost.row pair ≠ none → pair.1 ≠ row.id) :
    Mirrors { s with tables := { s.tables with channels := channels, drawn := drawn } }
      { ghost with channels := channels.rows.map Row.toChannel } where
  workers := h.workers
  channels := rfl
  rows pair := by
    obtain ⟨hapart, hrows⟩ := Table.insert_eq_some.mp hinsert
    change s.bell.row pair = if channels.rows.any (fun row => row.id = pair.1) then ghost.row pair
      else none
    rw [h.rows pair, hrows, List.any_append, System.hasChannel]
    by_cases hid : row.id = pair.1
    · have hnone : ghost.row pair = none := by
        by_contra hrow
        exact hnew pair hrow hid.symm
      rw [hnone, ite_self, ite_self]
    · simp [hid]

end Channels

section Runs

/-- The ids in use were drawn. -/
structure Drawn (deployment : Deployment) (s : System) (ghost : Worker.System) : Prop where
  channels : ∀ row ∈ s.tables.channels.rows, ∃ k < s.tables.drawn, row.id = deployment.uuid k
  rows : ∀ pair, ghost.row pair ≠ none → ∃ k < s.tables.drawn, pair.1 = deployment.uuid k

/-- The steps of the workers, on their part of the tables. -/
def moments (past : List (System × Label)) : List (Worker.System × Worker.Label) :=
  past.filterMap fun moment =>
    match moment.2 with
    | .work label => some (moment.1.bell, effective moment.1 label)
    | _ => none

def Alike (moment own : Worker.System × Worker.Label) : Prop :=
  moment.2 = own.2 ∧ moment.1.workers = own.1.workers ∧ moment.1.channels = own.1.channels

/-- What the workers did is what they would have done on the tables with the ghosts. -/
structure Haunted (deployment : Deployment) (past : List (System × Label)) (s : System)
    (own : List (Worker.System × Worker.Label)) (ghost : Worker.System) : Prop where
  run : GhostRun own ghost
  mirrors : Mirrors s ghost
  drawn : Drawn deployment s ghost
  alike : List.Forall₂ Alike (moments past) own

theorem moments_snoc {past : List (System × Label)} {label : Label}
    (h : ∀ own, label ≠ .work own) : moments (past ++ [(s, label)]) = moments past := by
  unfold moments
  rw [List.filterMap_append]
  cases label with
  | work own => exact absurd rfl (h own)
  | ask | proceed | abort | endProject | endTenant => simp

theorem haunted_step (hids : Function.Injective deployment.uuid)
    {past : List (System × Label)} {own : List (Worker.System × Worker.Label)} {label : Label}
    (h : Haunted deployment past s own ghost) (hstep : step deployment s label = some s') :
    ∃ own' ghost', Haunted deployment (past ++ [(s, label)]) s' own' ghost' := by
  cases changes_of_step hstep with
  | still hdrawn =>
      refine ⟨own, ghost, h.run, ⟨h.mirrors.workers, h.mirrors.channels, h.mirrors.rows⟩,
        ⟨fun row hrow => ?_, fun pair hpair => ?_⟩, ?_⟩
      · obtain ⟨k, hk, hid⟩ := h.drawn.channels row hrow
        exact ⟨k, hk.trans_le hdrawn, hid⟩
      · obtain ⟨k, hk, hid⟩ := h.drawn.rows pair hpair
        exact ⟨k, hk.trans_le hdrawn, hid⟩
      · rw [moments_snoc (by simp)]
        exact h.alike
  | @stored k principal env cache request projectId channels hfree htenant haccepted hinsert =>
      have hrows := (Table.insert_eq_some.mp hinsert).2
      have hmirrors := mirrors_stored h.mirrors (s.tables.drawn + 1) hinsert
        fun pair hpair hid => by
          obtain ⟨k, hk, hid'⟩ := h.drawn.rows pair hpair
          exact absurd (hids (hid'.symm.trans hid)) (Nat.ne_of_lt hk)
      refine ⟨own, _, h.run.relist _, ⟨hmirrors.workers, hmirrors.channels, hmirrors.rows⟩,
        ⟨fun row hrow => ?_, fun pair hpair => ?_⟩, ?_⟩
      · rcases List.mem_append.mp (hrows ▸ hrow) with hold | hnew
        · obtain ⟨k, hk, hid⟩ := h.drawn.channels row hold
          exact ⟨k, Nat.lt_succ_of_lt hk, hid⟩
        · rw [List.mem_singleton.mp hnew]
          exact ⟨s.tables.drawn, Nat.lt_succ_self _, rfl⟩
      · obtain ⟨k, hk, hid⟩ := h.drawn.rows pair hpair
        exact ⟨k, Nat.lt_succ_of_lt hk, hid⟩
      · rw [moments_snoc (by simp)]
        exact h.alike
  | tested | proceeded | aborted =>
      refine ⟨own, ghost, h.run, ⟨h.mirrors.workers, h.mirrors.channels, h.mirrors.rows⟩,
        ⟨h.drawn.channels, h.drawn.rows⟩, ?_⟩
      rw [moments_snoc (by simp)]
      exact h.alike
  | @dropped label gone hdrops =>
      refine ⟨own, _, h.run.relist _, mirrors_dropped h.mirrors gone,
        ⟨fun row hrow => ?_, h.drawn.rows⟩, ?_⟩
      · exact h.drawn.channels row (Table.mem_delete.mp hrow).1
      · rw [moments_snoc (by cases hdrops <;> simp)]
        exact h.alike
  | @worked label bell hlabel hbell =>
      obtain ⟨ghost', hghost, hmirrors⟩ := mirrors_worked h.mirrors hlabel hbell
      refine ⟨own ++ [(ghost, effective s label)], ghost', h.run.work hghost, hmirrors,
        ⟨h.drawn.channels, fun pair hpair => ?_⟩, ?_⟩
      · rcases hasChannel_of_appears h.mirrors hghost hpair with hold | hhas
        · exact h.drawn.rows pair hold
        · obtain ⟨row, hrow, hid⟩ := hasChannel_iff.mp hhas
          obtain ⟨k, hk, hid'⟩ := h.drawn.channels row hrow
          exact ⟨k, hk, hid.symm.trans hid'⟩
      · have hmoments : moments (past ++ [(s, .work label)]) =
            moments past ++ [(s.bell, effective s label)] := by
          unfold moments
          rw [List.filterMap_append]
          rfl
        rw [hmoments]
        exact List.rel_append h.alike
          (.cons ⟨rfl, h.mirrors.workers.symm, h.mirrors.channels.symm⟩ .nil)

theorem haunted_of_run (hids : Function.Injective deployment.uuid)
    {past : List (System × Label)} (run : Run (step deployment) .initial past s) :
    ∃ own ghost, Haunted deployment past s own ghost := by
  induction run with
  | refl =>
      exact ⟨[], .initial, .start, mirrors_initial,
        ⟨fun _ hrow => absurd hrow List.not_mem_nil, fun _ hpair => absurd rfl hpair⟩, .nil⟩
  | snoc _ hstep ih =>
      obtain ⟨own, ghost, h⟩ := ih
      exact haunted_step hids h hstep

/-- A send is the same on both tables. -/
theorem okSends_of_alike {past own : List (Worker.System × Worker.Label)}
    (h : List.Forall₂ Alike past own) (pair : Pair) : okSends past pair = okSends own pair := by
  induction h with
  | nil => rfl
  | @cons moment moment' past own hmoment _ ih =>
      obtain ⟨t, label⟩ := moment
      obtain ⟨t', label'⟩ := moment'
      obtain ⟨rfl, hworkers, -⟩ := hmoment
      have hsends : Worker.sends t label = Worker.sends t' label := by
        cases label with
        | send n outside cache =>
            simp only [Worker.sends]
            rw [show t.workers = t'.workers from hworkers]
        | subscribe | deliver | list | claim | finish | release | acknowledge | crash => rfl
      unfold okSends at ih ⊢
      rw [List.countP_cons, List.countP_cons, ih]
      simp only [hsends]

end Runs

end SeoPlatform.Gateway.GhostDeliveries
