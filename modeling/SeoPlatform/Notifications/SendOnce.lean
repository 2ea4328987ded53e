import SeoPlatform.Notifications.Worker

namespace SeoPlatform.Notifications.SendOnce

open SeoPlatform.Foundation.IpAddress
open SeoPlatform.Foundation.TransitionSystem
open SeoPlatform.Notifications.Channels
open SeoPlatform.Notifications.Deliver
open SeoPlatform.Notifications.Store
open SeoPlatform.Notifications.Worker
open SeoPlatform.Shared.Events
open SeoPlatform.Shared.Netguard

/-- All that a step can do to the claims. -/
inductive Effect (s : System) (label : Label) (s' : System) : Prop
  | quiet (hrow : ∀ pair, s'.row pair = s.row pair)
      (hworkers : ∀ m phase, s'.workers m = some phase →
        s.workers m = some phase ∨ phase.holds = none)
      (hwins : wins s label = none) (hsends : sends s label = none)
  | claimed (n : Nat) (loop : Loop) (channel : Channel) (answer : Answer)
      (hlabel : label = .claim n answer) (hfree : s.row (pairOf loop channel) = none)
      (hrow : ∀ pair, pair ≠ pairOf loop channel → s'.row pair = s.row pair)
      (hkept : s'.row (pairOf loop channel) ≠ none)
      (hworkers : s'.workers = Function.update s.workers n
        (if answer = .done then some (.sending loop channel) else none))
      (hwins : wins s label = some (n, pairOf loop channel)) (hsends : sends s label = none)
  | sent (n : Nat) (loop : Loop) (channel : Channel) (result : Result)
      (hbefore : s.workers n = some (.sending loop channel))
      (hrow : ∀ pair, s'.row pair = s.row pair)
      (hworkers : s'.workers =
        Function.update s.workers n (some (.finishing loop channel result)))
      (hwins : wins s label = none)
      (hsends : sends s label = some (n, pairOf loop channel, result.ok))
  | finished (n : Nat) (loop : Loop) (channel : Channel) (result : Result) (answer : Answer)
      (hlabel : label = .finish n answer)
      (hbefore : s.workers n = some (.finishing loop channel result))
      (hrow : ∀ pair, s'.row pair = none ↔ s.row pair = none)
      (hworkers : s'.workers = Function.update s.workers n
        (if answer = .done then some (afterFinish loop channel result) else none))
  | released (n : Nat) (loop : Loop) (channel : Channel) (answer : Answer)
      (hlabel : label = .release n answer)
      (hbefore : s.workers n = some (.releasing loop channel))
      (hrow : ∀ pair, pair ≠ pairOf loop channel → s'.row pair = s.row pair)
      (hworkers : s'.workers = Function.update s.workers n
        (if answer = .done then some (.claiming loop) else none))

section Effects

variable {s s' : System} {n : Nat}

theorem held_of_update {phase : Option Phase} (hphase : phase.bind Phase.holds = none) (m : Nat)
    (now : Phase) (h : Function.update s.workers n phase m = some now) :
    s.workers m = some now ∨ now.holds = none := by
  by_cases hm : m = n
  · subst hm
    rw [Function.update_self] at h
    subst h
    exact Or.inr hphase
  · rw [Function.update_of_ne hm] at h
    exact Or.inl h

theorem effect_list {baseUrl : String} {answer : Answer}
    (hstep : stepList s n baseUrl answer = some s') : Effect s (.list n baseUrl answer) s' := by
  unfold stepList at hstep
  split at hstep
  · rename_i e _
    obtain rfl := Option.some.inj hstep
    refine .quiet (fun _ => rfl) (held_of_update ?_) rfl rfl
    unfold listed
    dsimp only
    split
    · split
      · rfl
      · split <;> rfl
    · rfl
  · contradiction

theorem effect_claim {answer : Answer} (hstep : stepClaim s n answer = some s') :
    Effect s (.claim n answer) s' := by
  unfold stepClaim at hstep
  split at hstep
  · rename_i loop hloop
    split at hstep
    · contradiction
    · rename_i channel rest hrest
      let claimed := claim s.deliveries channel.id loop.envelope.id loop.envelope.type.name
      have hs' : s.answered n answer claimed.2
          (if claimed.1 then .sending { loop with rest := rest } channel
            else .claiming { loop with rest := rest }) = s' := Option.some.inj hstep
      subst hs'
      have hwon : ∀ won, claimed.1 = won → wins s (.claim n answer) =
            if won && answer ≠ .refused then some (n, pairOf loop channel) else none := by
        rintro _ rfl
        simp only [wins, hloop, hrest]
        rfl
      by_cases hwins : claimed.1 = true ∧ answer ≠ .refused
      · obtain ⟨hfree, hanswer⟩ := hwins
        refine .claimed n { loop with rest := rest } channel answer rfl
          (claim_wins_iff.mp hfree) ?_ ?_ ?_ ?_ rfl
        · intro pair hpair
          simp only [System.row, System.answered, if_neg hanswer]
          rw [delivery?_claim, if_neg]
          rintro ⟨-, hchannel, hevent⟩
          exact hpair (Prod.ext hchannel hevent)
        · simp only [System.row, System.answered, if_neg hanswer]
          rw [delivery?_claim, if_pos ⟨hfree, rfl, rfl⟩]
          simp
        · simp only [System.answered, hfree, if_true]
        · have hpair := hwon _ hfree
          rwa [if_pos (by simpa using hanswer)] at hpair
      · have hsame : claimed.1 = true → answer = .refused := by
          intro hfree
          by_contra hanswer
          exact hwins ⟨hfree, hanswer⟩
        refine .quiet ?_ ?_ ?_ rfl
        · intro pair
          simp only [System.row, System.answered]
          split
          · rfl
          · rename_i hanswer
            rw [delivery?_claim, if_neg]
            rintro ⟨hfree, -⟩
            exact hanswer (hsame hfree)
        · apply held_of_update
          split
          · rename_i hdone
            rw [if_neg]
            · rfl
            · intro hfree
              rw [hsame hfree] at hdone
              contradiction
          · rfl
        · rw [hwon _ rfl, if_neg]
          simpa using hwins
  · contradiction

theorem effect_send {outside : Circumstances} {cache : Cache}
    (hstep : stepSend s n outside cache = some s') : Effect s (.send n outside cache) s' := by
  unfold stepSend at hstep
  split at hstep
  · rename_i loop channel hbefore
    split at hstep
    · rename_i e hsend
      obtain rfl := Option.some.inj hstep
      refine .quiet (fun _ => rfl) (held_of_update rfl) rfl ?_
      simp only [sends, hbefore, hsend]
    · rename_i result hsend
      obtain rfl := Option.some.inj hstep
      refine .sent n loop channel result hbefore (fun _ => rfl) rfl rfl ?_
      simp only [sends, hbefore, hsend]
  · contradiction

theorem effect_finish {answer : Answer} (hstep : stepFinish s n answer = some s') :
    Effect s (.finish n answer) s' := by
  unfold stepFinish at hstep
  split at hstep
  · rename_i loop channel result hbefore
    obtain rfl := Option.some.inj hstep
    refine .finished n loop channel result answer rfl hbefore ?_ rfl
    intro pair
    simp only [System.row, System.answered]
    split
    · rfl
    · rw [delivery?_finish, Option.map_eq_none_iff]
  · contradiction

theorem effect_release {answer : Answer} (hstep : stepRelease s n answer = some s') :
    Effect s (.release n answer) s' := by
  unfold stepRelease at hstep
  split at hstep
  · rename_i loop channel hbefore
    obtain rfl := Option.some.inj hstep
    refine .released n loop channel answer rfl hbefore ?_ rfl
    intro pair hpair
    simp only [System.row, System.answered]
    split
    · rfl
    · rw [delivery?_release, if_neg]
      rintro ⟨hchannel, hevent⟩
      exact hpair (Prod.ext hchannel hevent)
  · contradiction

theorem effect_of_step {label : Label} (hstep : step s label = some s') : Effect s label s' := by
  cases label with
  | subscribe channel =>
      simp only [step] at hstep
      split at hstep
      · contradiction
      · obtain rfl := Option.some.inj hstep
        exact .quiet (fun _ => rfl) (fun _ _ h => Or.inl h) rfl rfl
  | deliver n e =>
      simp only [step] at hstep
      split at hstep
      · obtain rfl := Option.some.inj hstep
        exact .quiet (fun _ => rfl) (held_of_update rfl) rfl rfl
      · contradiction
  | list n baseUrl answer => exact effect_list hstep
  | claim n answer => exact effect_claim hstep
  | send n outside cache => exact effect_send hstep
  | finish n answer => exact effect_finish hstep
  | release n answer => exact effect_release hstep
  | acknowledge n =>
      simp only [step, stepAcknowledge] at hstep
      split at hstep
      · split at hstep
        · obtain rfl := Option.some.inj hstep
          exact .quiet (fun _ => rfl) (held_of_update rfl) rfl rfl
        · contradiction
      · contradiction
  | crash n =>
      obtain rfl := Option.some.inj hstep
      exact .quiet (fun _ => rfl) (held_of_update rfl) rfl rfl

end Effects

/-- The sends of a pair that returned ok. -/
def okSends (past : List (System × Label)) (pair : Pair) : Nat :=
  past.countP fun moment =>
    (sends moment.1 moment.2).any fun sent => sent.2 = (pair, true)

/-- The worker's claim of a pair won and was the last to, and since then the worker
has not taken another message. -/
def ClaimedBy (past : List (System × Label)) (n : Nat) (pair : Pair)
    (since : List (System × Label)) : Prop :=
  ∃ before moment, past = before ++ moment :: since ∧
    wins moment.1 moment.2 = some (n, pair) ∧
    ∀ later ∈ since, (∀ m, wins later.1 later.2 ≠ some (m, pair)) ∧
      ∀ e, later.2 ≠ .deliver n e

def Phase.Failed : Phase → Prop
  | .finishing _ _ result => result.ok = false
  | .releasing _ _ => True
  | _ => False

def Phase.Succeeded : Phase → Prop
  | .finishing _ _ result => result.ok = true
  | _ => False

structure Safe (past : List (System × Label)) (s : System) : Prop where
  row : ∀ n pair, s.Holds n pair → s.row pair ≠ none
  alone : ∀ m n pair, s.Holds m pair → s.Holds n pair → m = n
  once : ∀ pair, okSends past pair = 0 ∨
    (okSends past pair = 1 ∧ s.row pair ≠ none ∧
      ∀ n phase, s.workers n = some phase → phase.holds = some pair → Phase.Succeeded phase)
  own : ∀ n phase pair, s.workers n = some phase → phase.holds = some pair →
    ∃ since, ClaimedBy past n pair since ∧
      (Phase.Failed phase → ∃ sent ∈ since, sends sent.1 sent.2 = some (n, pair, false))

theorem safe_initial : Safe [] System.initial where
  row := by
    rintro n pair ⟨phase, hphase, -⟩
    contradiction
  alone := by
    rintro m n pair ⟨phase, hphase, -⟩
    contradiction
  once _ := Or.inl rfl
  own := by
    intro n phase pair hphase
    contradiction

section Steps

variable {past : List (System × Label)} {s s' : System} {label : Label} {n : Nat} {pair : Pair}

theorem okSends_snoc : okSends (past ++ [(s, label)]) pair = okSends past pair +
    if (sends s label).any (fun sent => sent.2 = (pair, true)) then 1 else 0 := by
  unfold okSends
  rw [List.countP_append, List.countP_singleton]

theorem okSends_snoc_of_none (hsends : sends s label = none) :
    okSends (past ++ [(s, label)]) pair = okSends past pair := by
  rw [okSends_snoc, hsends]
  rfl

theorem claimedBy_snoc {since : List (System × Label)} (h : ClaimedBy past n pair since)
    (hwins : ∀ m, wins s label ≠ some (m, pair)) (hlabel : ∀ e, label ≠ .deliver n e) :
    ClaimedBy (past ++ [(s, label)]) n pair (since ++ [(s, label)]) := by
  obtain ⟨before, moment, rfl, hmoment, hsince⟩ := h
  refine ⟨before, moment, by simp, hmoment, ?_⟩
  intro later hlater
  rcases List.mem_append.mp hlater with hlater | hlater
  · exact hsince later hlater
  · obtain rfl := List.mem_singleton.mp hlater
    exact ⟨hwins, hlabel⟩

theorem claimedBy_now (hwins : wins s label = some (n, pair)) :
    ClaimedBy (past ++ [(s, label)]) n pair [] :=
  ⟨past, (s, label), rfl, hwins, by simp⟩

theorem idle_of_deliver {e : Envelope} (hstep : step s (.deliver n e) = some s') :
    s.workers n = none := by
  simp only [step] at hstep
  split at hstep
  · rename_i hidle
    simp only [Bool.and_eq_true, Option.isNone_iff_eq_none] at hidle
    exact hidle.1
  · contradiction

/-- Who holds a phase after an update of one worker. -/
theorem workers_update {next : Option Phase} {m : Nat} {phase : Phase}
    (h : Function.update s.workers n next m = some phase) :
    (m = n ∧ next = some phase) ∨ (m ≠ n ∧ s.workers m = some phase) := by
  by_cases hm : m = n
  · subst hm
    rw [Function.update_self] at h
    exact Or.inl ⟨rfl, h⟩
  · rw [Function.update_of_ne hm] at h
    exact Or.inr ⟨hm, h⟩

/-- What the own claim is known by is kept by a step that leaves the holder be. -/
theorem own_kept (label : Label) {phase : Phase} (h : Safe past s)
    (hphase : s.workers n = some phase) (hholds : phase.holds = some pair)
    (hwins : ∀ m, wins s label ≠ some (m, pair))
    (hlabel : ∀ e, label ≠ .deliver n e) :
    ∃ since, ClaimedBy (past ++ [(s, label)]) n pair since ∧
      (Phase.Failed phase → ∃ sent ∈ since, sends sent.1 sent.2 = some (n, pair, false)) := by
  obtain ⟨since, hclaimed, hfailed⟩ := h.own n phase pair hphase hholds
  refine ⟨since ++ [(s, label)], claimedBy_snoc hclaimed hwins hlabel, ?_⟩
  intro hphase
  obtain ⟨sent, hmem, hsent⟩ := hfailed hphase
  exact ⟨sent, List.mem_append_left _ hmem, hsent⟩

theorem safe_quiet (h : Safe past s) (hstep : step s label = some s')
    (hrow : ∀ pair, s'.row pair = s.row pair)
    (hworkers : ∀ m phase, s'.workers m = some phase →
      s.workers m = some phase ∨ phase.holds = none)
    (hwins : wins s label = none) (hsends : sends s label = none) :
    Safe (past ++ [(s, label)]) s' := by
  have hbefore : ∀ m phase pair, s'.workers m = some phase → phase.holds = some pair →
      s.workers m = some phase := by
    intro m phase pair hphase hholds
    rcases hworkers m phase hphase with hsame | hnone
    · exact hsame
    · rw [hnone] at hholds
      contradiction
  refine ⟨?_, ?_, ?_, ?_⟩
  · rintro m pair ⟨phase, hphase, hholds⟩
    rw [hrow]
    exact h.row m pair ⟨phase, hbefore m phase pair hphase hholds, hholds⟩
  · rintro m m' pair ⟨phase, hphase, hholds⟩ ⟨phase', hphase', hholds'⟩
    apply h.alone m m' pair
    · exact ⟨phase, hbefore m phase pair hphase hholds, hholds⟩
    · exact ⟨phase', hbefore m' phase' pair hphase' hholds', hholds'⟩
  · intro pair
    rw [okSends_snoc_of_none hsends, hrow]
    rcases h.once pair with hzero | ⟨hone, hkept, hsucceeded⟩
    · exact Or.inl hzero
    · refine Or.inr ⟨hone, hkept, ?_⟩
      intro m phase hphase hholds
      exact hsucceeded m phase (hbefore m phase pair hphase hholds) hholds
  · intro m phase pair hphase hholds
    have hsame := hbefore m phase pair hphase hholds
    apply own_kept _ h hsame hholds
    · simp [hwins]
    · rintro e rfl
      rw [idle_of_deliver hstep] at hsame
      contradiction

theorem safe_claimed {loop : Loop} {channel : Channel} {answer : Answer} (h : Safe past s)
    (hlabel : label = .claim n answer) (hfree : s.row (pairOf loop channel) = none)
    (hrow : ∀ pair, pair ≠ pairOf loop channel → s'.row pair = s.row pair)
    (hkept : s'.row (pairOf loop channel) ≠ none)
    (hworkers : s'.workers = Function.update s.workers n
      (if answer = .done then some (.sending loop channel) else none))
    (hwins : wins s label = some (n, pairOf loop channel)) (hsends : sends s label = none) :
    Safe (past ++ [(s, label)]) s' := by
  -- a holder is the winner, or held another pair before
  have hholder : ∀ m phase pair, s'.workers m = some phase → phase.holds = some pair →
      (m = n ∧ phase = .sending loop channel ∧ pair = pairOf loop channel) ∨
      (s.workers m = some phase ∧ pair ≠ pairOf loop channel) := by
    intro m phase pair hphase hholds
    rw [hworkers] at hphase
    rcases workers_update hphase with ⟨hm, hnew⟩ | ⟨-, hold⟩
    · split at hnew
      · obtain rfl := Option.some.inj hnew
        exact Or.inl ⟨hm, rfl, (Option.some.inj hholds).symm⟩
      · contradiction
    · refine Or.inr ⟨hold, ?_⟩
      rintro rfl
      exact h.row m _ ⟨phase, hold, hholds⟩ hfree
  refine ⟨?_, ?_, ?_, ?_⟩
  · rintro m pair ⟨phase, hphase, hholds⟩
    rcases hholder m phase pair hphase hholds with ⟨-, -, rfl⟩ | ⟨hold, hpair⟩
    · exact hkept
    · rw [hrow pair hpair]
      exact h.row m pair ⟨phase, hold, hholds⟩
  · rintro m m' pair ⟨phase, hphase, hholds⟩ ⟨phase', hphase', hholds'⟩
    rcases hholder m phase pair hphase hholds with ⟨rfl, -, hpair⟩ | ⟨hold, hpair⟩
    · rcases hholder m' phase' pair hphase' hholds' with ⟨rfl, -⟩ | ⟨-, hother⟩
      · rfl
      · contradiction
    · rcases hholder m' phase' pair hphase' hholds' with ⟨-, -, hother⟩ | ⟨hold', -⟩
      · contradiction
      · exact h.alone m m' pair ⟨phase, hold, hholds⟩ ⟨phase', hold', hholds'⟩
  · intro pair
    rw [okSends_snoc_of_none hsends]
    rcases h.once pair with hzero | ⟨hone, hrest, hsucceeded⟩
    · exact Or.inl hzero
    · have hpair : pair ≠ pairOf loop channel := by
        rintro rfl
        contradiction
      refine Or.inr ⟨hone, by rwa [hrow pair hpair], ?_⟩
      intro m phase hphase hholds
      rcases hholder m phase pair hphase hholds with ⟨-, -, hother⟩ | ⟨hold, -⟩
      · contradiction
      · exact hsucceeded m phase hold hholds
  · intro m phase pair hphase hholds
    rcases hholder m phase pair hphase hholds with ⟨rfl, rfl, rfl⟩ | ⟨hold, hpair⟩
    · exact ⟨[], claimedBy_now hwins, False.elim⟩
    · apply own_kept _ h hold hholds
      · intro m' hwon
        rw [hwins] at hwon
        exact hpair (Prod.ext_iff.mp (Option.some.inj hwon)).2.symm
      · rintro e rfl
        contradiction

theorem safe_sent {loop : Loop} {channel : Channel} {result : Result} (h : Safe past s)
    (hbefore : s.workers n = some (.sending loop channel))
    (hrow : ∀ pair, s'.row pair = s.row pair)
    (hworkers : s'.workers = Function.update s.workers n (some (.finishing loop channel result)))
    (hwins : wins s label = none)
    (hsends : sends s label = some (n, pairOf loop channel, result.ok)) :
    Safe (past ++ [(s, label)]) s' := by
  have hsender : s.Holds n (pairOf loop channel) := ⟨_, hbefore, rfl⟩
  have hlabel : ∀ m e, label ≠ .deliver m e := by
    rintro m e rfl
    contradiction
  have hholder : ∀ m phase pair, s'.workers m = some phase → phase.holds = some pair →
      s.Holds m pair ∧ ((m = n ∧ phase = .finishing loop channel result) ∨
        s.workers m = some phase) := by
    intro m phase pair hphase hholds
    rw [hworkers] at hphase
    rcases workers_update hphase with ⟨rfl, hnew⟩ | ⟨-, hold⟩
    · obtain rfl := Option.some.inj hnew
      exact ⟨⟨_, hbefore, hholds⟩, Or.inl ⟨rfl, rfl⟩⟩
    · exact ⟨⟨phase, hold, hholds⟩, Or.inr hold⟩
  refine ⟨?_, ?_, ?_, ?_⟩
  · rintro m pair ⟨phase, hphase, hholds⟩
    rw [hrow]
    exact h.row m pair (hholder m phase pair hphase hholds).1
  · rintro m m' pair ⟨phase, hphase, hholds⟩ ⟨phase', hphase', hholds'⟩
    exact h.alone m m' pair (hholder m phase pair hphase hholds).1
      (hholder m' phase' pair hphase' hholds').1
  · intro pair
    rw [okSends_snoc, hsends, hrow]
    rcases h.once pair with hzero | ⟨hone, hkept, hsucceeded⟩
    · by_cases hnow : (pairOf loop channel, result.ok) = (pair, true)
      · obtain ⟨rfl, hok⟩ := Prod.ext_iff.mp hnow
        refine Or.inr ⟨?_, h.row n _ hsender, ?_⟩
        · simpa [hzero] using hok
        · intro m phase hphase hholds
          obtain ⟨hheld, ⟨-, rfl⟩ | hold⟩ := hholder m phase _ hphase hholds
          · exact hok
          · obtain rfl := h.alone m n _ hheld hsender
            rw [hworkers, Function.update_self] at hphase
            obtain rfl := Option.some.inj hphase
            exact hok
      · refine Or.inl ?_
        simpa [hzero] using hnow
    · have hpair : pairOf loop channel ≠ pair := by
        rintro rfl
        exact hsucceeded n _ hbefore rfl
      refine Or.inr ⟨?_, hkept, ?_⟩
      · simpa [hone] using fun hsame => absurd hsame hpair
      · intro m phase hphase hholds
        obtain ⟨-, ⟨-, rfl⟩ | hold⟩ := hholder m phase pair hphase hholds
        · exact absurd (Option.some.inj hholds) hpair
        · exact hsucceeded m phase hold hholds
  · intro m phase pair hphase hholds
    obtain ⟨-, ⟨rfl, rfl⟩ | hold⟩ := hholder m phase pair hphase hholds
    · obtain ⟨since, hclaimed, -⟩ := h.own m _ pair hbefore hholds
      refine ⟨since ++ [(s, label)], claimedBy_snoc hclaimed (by simp [hwins]) (hlabel m), ?_⟩
      intro hfailed
      refine ⟨(s, label), by simp, ?_⟩
      obtain rfl : pairOf loop channel = pair := Option.some.inj hholds
      have hok : result.ok = false := hfailed
      rw [hsends, hok]
    · exact own_kept _ h hold hholds (by simp [hwins]) (hlabel m)

theorem safe_finished {loop : Loop} {channel : Channel} {result : Result} {answer : Answer}
    (h : Safe past s) (hlabel : label = .finish n answer)
    (hbefore : s.workers n = some (.finishing loop channel result))
    (hrow : ∀ pair, s'.row pair = none ↔ s.row pair = none)
    (hworkers : s'.workers = Function.update s.workers n
      (if answer = .done then some (afterFinish loop channel result) else none)) :
    Safe (past ++ [(s, label)]) s' := by
  subst hlabel
  have hholder : ∀ m phase pair, s'.workers m = some phase → phase.holds = some pair →
      s.Holds m pair ∧ ((m = n ∧ phase = .releasing loop channel ∧ result.ok = false) ∨
        s.workers m = some phase) := by
    intro m phase pair hphase hholds
    rw [hworkers] at hphase
    rcases workers_update hphase with ⟨rfl, hnew⟩ | ⟨-, hold⟩
    · split at hnew
      · obtain rfl := Option.some.inj hnew
        unfold afterFinish at hholds ⊢
        split at hholds
        · contradiction
        · rename_i hok
          split at hholds
          · rename_i hretry
            refine ⟨⟨_, hbefore, hholds⟩, Or.inl ⟨rfl, ?_, by simpa using hok⟩⟩
            rw [if_neg hok, if_pos hretry]
          · contradiction
      · contradiction
    · exact ⟨⟨phase, hold, hholds⟩, Or.inr hold⟩
  refine ⟨?_, ?_, ?_, ?_⟩
  · rintro m pair ⟨phase, hphase, hholds⟩
    rw [Ne, hrow]
    exact h.row m pair (hholder m phase pair hphase hholds).1
  · rintro m m' pair ⟨phase, hphase, hholds⟩ ⟨phase', hphase', hholds'⟩
    exact h.alone m m' pair (hholder m phase pair hphase hholds).1
      (hholder m' phase' pair hphase' hholds').1
  · intro pair
    rw [okSends_snoc_of_none rfl, Ne, hrow]
    rcases h.once pair with hzero | ⟨hone, hkept, hsucceeded⟩
    · exact Or.inl hzero
    · refine Or.inr ⟨hone, hkept, ?_⟩
      intro m phase hphase hholds
      obtain ⟨-, ⟨rfl, rfl, hok⟩ | hold⟩ := hholder m phase pair hphase hholds
      · have hsucceeded : result.ok = true := hsucceeded m _ hbefore hholds
        rw [hok] at hsucceeded
        contradiction
      · exact hsucceeded m phase hold hholds
  · intro m phase pair hphase hholds
    obtain ⟨-, ⟨rfl, rfl, hok⟩ | hold⟩ := hholder m phase pair hphase hholds
    · obtain ⟨since, hclaimed, hfailed⟩ :=
        own_kept (.finish m answer) h hbefore hholds (by simp [wins]) (by simp)
      exact ⟨since, hclaimed, fun _ => hfailed hok⟩
    · exact own_kept _ h hold hholds (by simp [wins]) (by simp)

theorem safe_released {loop : Loop} {channel : Channel} {answer : Answer}
    (h : Safe past s) (hlabel : label = .release n answer)
    (hbefore : s.workers n = some (.releasing loop channel))
    (hrow : ∀ pair, pair ≠ pairOf loop channel → s'.row pair = s.row pair)
    (hworkers : s'.workers = Function.update s.workers n
      (if answer = .done then some (.claiming loop) else none)) :
    Safe (past ++ [(s, label)]) s' := by
  subst hlabel
  have hreleaser : s.Holds n (pairOf loop channel) := ⟨_, hbefore, rfl⟩
  have hholder : ∀ m phase pair, s'.workers m = some phase → phase.holds = some pair →
      s.workers m = some phase ∧ pair ≠ pairOf loop channel := by
    intro m phase pair hphase hholds
    rw [hworkers] at hphase
    rcases workers_update hphase with ⟨-, hnew⟩ | ⟨hm, hold⟩
    · split at hnew
      · obtain rfl := Option.some.inj hnew
        contradiction
      · contradiction
    · refine ⟨hold, ?_⟩
      rintro rfl
      exact hm (h.alone m n _ ⟨phase, hold, hholds⟩ hreleaser)
  refine ⟨?_, ?_, ?_, ?_⟩
  · rintro m pair ⟨phase, hphase, hholds⟩
    obtain ⟨hold, hpair⟩ := hholder m phase pair hphase hholds
    rw [hrow pair hpair]
    exact h.row m pair ⟨phase, hold, hholds⟩
  · rintro m m' pair ⟨phase, hphase, hholds⟩ ⟨phase', hphase', hholds'⟩
    apply h.alone m m' pair
    · exact ⟨phase, (hholder m phase pair hphase hholds).1, hholds⟩
    · exact ⟨phase', (hholder m' phase' pair hphase' hholds').1, hholds'⟩
  · intro pair
    rw [okSends_snoc_of_none rfl]
    rcases h.once pair with hzero | ⟨hone, hkept, hsucceeded⟩
    · exact Or.inl hzero
    · have hpair : pair ≠ pairOf loop channel := by
        rintro rfl
        exact hsucceeded n _ hbefore rfl
      refine Or.inr ⟨hone, by rwa [hrow pair hpair], ?_⟩
      intro m phase hphase hholds
      exact hsucceeded m phase (hholder m phase pair hphase hholds).1 hholds
  · intro m phase pair hphase hholds
    exact own_kept _ h (hholder m phase pair hphase hholds).1 hholds (by simp [wins]) (by simp)

theorem safe_step (h : Safe past s) (hstep : step s label = some s') :
    Safe (past ++ [(s, label)]) s' := by
  cases effect_of_step hstep with
  | quiet hrow hworkers hwins hsends =>
      exact safe_quiet h hstep hrow hworkers hwins hsends
  | claimed n loop channel answer hlabel hfree hrow hkept hworkers hwins hsends =>
      exact safe_claimed h hlabel hfree hrow hkept hworkers hwins hsends
  | sent n loop channel result hbefore hrow hworkers hwins hsends =>
      exact safe_sent h hbefore hrow hworkers hwins hsends
  | finished n loop channel result answer hlabel hbefore hrow hworkers =>
      exact safe_finished h hlabel hbefore hrow hworkers
  | released n loop channel answer hlabel hbefore hrow hworkers =>
      exact safe_released h hlabel hbefore hrow hworkers

theorem safe_of_run (run : Run step System.initial past s) : Safe past s := by
  induction run with
  | refl => exact safe_initial
  | snoc _ hstep ih => exact safe_step ih hstep

/-- Only a release deletes a row, and only of the worker's own claim whose send failed. -/
theorem row_deleted (h : Safe past s) (hstep : step s label = some s')
    (hrow : s.row pair ≠ none) (hgone : s'.row pair = none) :
    ∃ n answer since, label = .release n answer ∧ ClaimedBy past n pair since ∧
      ∃ sent ∈ since, sends sent.1 sent.2 = some (n, pair, false) := by
  cases effect_of_step hstep with
  | quiet hsame | sent _ _ _ _ _ hsame =>
      rw [hsame] at hgone
      contradiction
  | claimed n loop channel answer _ _ hsame hkept =>
      by_cases hpair : pair = pairOf loop channel
      · subst hpair
        contradiction
      · rw [hsame pair hpair] at hgone
        contradiction
  | finished n loop channel result answer _ _ hsame =>
      exact absurd ((hsame pair).mp hgone) hrow
  | released n loop channel answer hlabel hbefore hsame =>
      by_cases hpair : pair = pairOf loop channel
      · subst hpair
        obtain ⟨since, hclaimed, hfailed⟩ := h.own n _ _ hbefore rfl
        exact ⟨n, answer, since, hlabel, hclaimed, hfailed trivial⟩
      · rw [hsame pair hpair] at hgone
        contradiction

end Steps

theorem sent_at_most_once {past : List (System × Label)} {s : System}
    (run : Run step System.initial past s) :
    (∀ pair, okSends past pair ≤ 1) ∧
    (∀ m n pair, s.Sending m pair → s.Sending n pair → m = n) ∧
    ∀ before moment after s' pair, past = before ++ moment :: after →
      step moment.1 moment.2 = some s' → moment.1.row pair ≠ none → s'.row pair = none →
      ∃ n answer since, moment.2 = .release n answer ∧ ClaimedBy before n pair since ∧
        ∃ sent ∈ since, sends sent.1 sent.2 = some (n, pair, false) := by
  have hsafe := safe_of_run run
  refine ⟨?_, ?_, ?_⟩
  · intro pair
    rcases hsafe.once pair with hzero | ⟨hone, -⟩ <;> omega
  · rintro m n pair ⟨loop, channel, hm, rfl⟩ ⟨loop', channel', hn, hpair⟩
    exact hsafe.alone m n _ ⟨_, hm, rfl⟩ ⟨_, hn, congrArg some hpair⟩
  · rintro before moment after s' pair rfl hstep hrow hgone
    exact row_deleted (safe_of_run run.before) hstep hrow hgone

/-- A resolver that knows one host. -/
def surroundings : Surroundings where
  rules := {
    lower := String.map Char.toLower
    casefold := String.map Char.toLower
    netlocFault := fun _ => none }
  setting := none
  resolver host :=
    if host = "hook.example.com" then
      .found [⟨"93.184.216.34", some (.v4 (ipv4 93 184 216 34))⟩]
    else .gaierror "Name or service not known"

/-- The far side answers with a status. -/
def answering (status : Nat) : Circumstances where
  env := surroundings
  smtpHost := none
  exchange := {
    ending := .response { status := status, headers := [], body := .ok { size := 0, text := "" } } }
  mail := {}

def hook : Channel where
  id := "h"
  tenantId := some "t"
  kind := "webhook"
  target := "https://hook.example.com/seo"

def rendered : Envelope where
  id := "e"
  type := .reportRendered
  payload := [("workflow_id", .str "w"), ("report_id", .str "r"), ("status", .str "completed")]
  producer := "report-service"
  occurredAt := 0
  tenantId := some "t"

/-- The first send is answered with 503, and its claim given back. The message
comes to two workers more, and one of them sends it. -/
def sentSecondTime : List Label :=
  [.subscribe hook,
   .deliver 0 rendered, .list 0 "" .done, .claim 0 .done, .send 0 (answering 503) [],
   .finish 0 .done, .release 0 .done, .acknowledge 0,
   .deliver 1 rendered, .list 1 "" .done, .deliver 2 rendered, .list 2 "" .done,
   .claim 2 .done, .claim 1 .done, .send 2 (answering 200) [], .finish 2 .done]

theorem sent_at_most_once_secondTime :
    ∃ (past : List (System × Label)) (s : System), past.map Prod.snd = sentSecondTime ∧
      okSends past ("h", "e") = 1 ∧
      (∀ pair, okSends past pair ≤ 1) ∧
      (∀ m n pair, s.Sending m pair → s.Sending n pair → m = n) ∧
      ∀ before moment after s' pair, past = before ++ moment :: after →
        step moment.1 moment.2 = some s' → moment.1.row pair ≠ none → s'.row pair = none →
        ∃ n answer since, moment.2 = .release n answer ∧ ClaimedBy before n pair since ∧
          ∃ sent ∈ since, sends sent.1 sent.2 = some (n, pair, false) := by
  obtain ⟨past, s, hlabels, run, hcheck⟩ :=
    Run.of_check step System.initial sentSecondTime
      (fun past _ => okSends past ("h", "e") = 1) (by decide +kernel)
  exact ⟨past, s, hlabels, of_decide_eq_true hcheck, sent_at_most_once run⟩

end SeoPlatform.Notifications.SendOnce
