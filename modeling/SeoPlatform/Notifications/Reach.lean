import SeoPlatform.Notifications.SendOnce

namespace SeoPlatform.Notifications.Reach

open SeoPlatform.Foundation.TransitionSystem
open SeoPlatform.Notifications.Channels
open SeoPlatform.Notifications.Deliver
open SeoPlatform.Notifications.SendOnce
open SeoPlatform.Notifications.Store
open SeoPlatform.Notifications.Worker
open SeoPlatform.Shared.Events
open SeoPlatform.Shared.Netguard

/-- Sent, or failed in a way that another attempt does not mend. -/
def SettledRow (row : Delivery) : Prop :=
  row.status = .sent ∨ (row.status = .failed ∧ retryable row.httpStatus = false)

def Settled (s : System) (pair : Pair) : Prop := ∃ row, s.row pair = some row ∧ SettledRow row

/-- The worker last read the channels at this moment, for this event. -/
def ListedAt (past : List (System × Label)) (n : Nat) (e : Envelope) (s : System) : Prop :=
  ∃ before baseUrl answer after, past = before ++ (s, .list n baseUrl answer) :: after ∧
    s.workers n = some (.listing e) ∧
    ∀ later ∈ after, ∀ baseUrl answer, later.2 ≠ .list n baseUrl answer

/-- Whenever a handler has returned, every channel that was subscribed when it
read the channels is settled. -/
def NothingLost (past : List (System × Label)) : Prop :=
  ∀ before s n loop after, past = before ++ (s, .acknowledge n) :: after →
    s.workers n = some (.claiming loop) →
    ∃ t, ListedAt before n loop.envelope t ∧
      ∀ channel ∈ subscribedTo t.channels loop.envelope, Settled s (pairOf loop channel)

/-- No send comes back with a failure that is called worth retrying, and no
claim meets a row that is still being sent. -/
def Smooth (s : System) : Label → Bool
  | .send n outside cache =>
      match s.workers n with
      | some (.sending _ channel) =>
          match (send outside { cache := cache, trace := [] } channel).1 with
          | .ok result => result.ok || !retryable result.status
          | .error _ => true
      | _ => true
  | .claim n _ =>
      match s.workers n with
      | some (.claiming loop) =>
          loop.rest.head?.all fun channel =>
            (s.row (pairOf loop channel)).all fun row => row.status ≠ .sending
      | _ => true
  | _ => true

/-- Every channel of the loop is still to come, or in hand, or settled. -/
def Covers (past : List (System × Label)) (s : System) (n : Nat) (loop : Loop)
    (inHand : List Channel) : Prop :=
  ∃ t, ListedAt past n loop.envelope t ∧
    ∀ channel ∈ subscribedTo t.channels loop.envelope,
      channel ∈ inHand ++ loop.rest ∨ Settled s (pairOf loop channel)

def Tracks (past : List (System × Label)) (s : System) (n : Nat) : Phase → Prop
  | .listing _ => True
  | .claiming loop => Covers past s n loop []
  | .sending loop channel => Covers past s n loop [channel]
  | .finishing loop channel result =>
      Covers past s n loop [channel] ∧ (result.ok = true ∨ retryable result.status = false)
  | .releasing _ _ => False

structure Tracked (past : List (System × Label)) (s : System) : Prop where
  rows : ∀ pair row, s.row pair = some row → row.status = .sending ∨ SettledRow row
  phases : ∀ n phase, s.workers n = some phase → Tracks past s n phase

theorem tracked_initial : Tracked [] System.initial where
  rows := by
    intro pair row hrow
    contradiction
  phases := by
    intro n phase hphase
    contradiction

section Steps

variable {past : List (System × Label)} {s s' : System} {label : Label} {n : Nat}
  {loop : Loop} {inHand : List Channel}

theorem listedAt_snoc {e : Envelope} {t : System} (h : ListedAt past n e t)
    (hlabel : ∀ baseUrl answer, label ≠ .list n baseUrl answer) :
    ListedAt (past ++ [(s, label)]) n e t := by
  obtain ⟨before, baseUrl, answer, after, rfl, hbefore, hafter⟩ := h
  refine ⟨before, baseUrl, answer, after ++ [(s, label)], by simp, hbefore, ?_⟩
  intro later hlater
  rcases List.mem_append.mp hlater with hlater | hlater
  · exact hafter later hlater
  · obtain rfl := List.mem_singleton.mp hlater
    exact hlabel

theorem covers_snoc (label : Label) (h : Covers past s n loop inHand)
    (hlabel : ∀ baseUrl answer, label ≠ .list n baseUrl answer)
    (hsettled : ∀ pair, Settled s pair → Settled s' pair) :
    Covers (past ++ [(s, label)]) s' n loop inHand := by
  obtain ⟨t, hlisted, hcovered⟩ := h
  refine ⟨t, listedAt_snoc hlisted hlabel, ?_⟩
  intro channel hmem
  exact (hcovered channel hmem).imp_right (hsettled _)

theorem tracks_snoc {phase : Phase} (h : Tracks past s n phase)
    (hlabel : ∀ baseUrl answer, label ≠ .list n baseUrl answer)
    (hsettled : ∀ pair, Settled s pair → Settled s' pair) :
    Tracks (past ++ [(s, label)]) s' n phase := by
  cases phase with
  | listing e => trivial
  | claiming loop => exact covers_snoc _ h hlabel hsettled
  | sending loop channel => exact covers_snoc _ h hlabel hsettled
  | finishing loop channel result => exact ⟨covers_snoc _ h.1 hlabel hsettled, h.2⟩
  | releasing loop channel => exact h

theorem settled_of_rows (hrow : ∀ pair, s'.row pair = s.row pair) (pair : Pair)
    (h : Settled s pair) : Settled s' pair := by
  unfold Settled
  rwa [hrow]

/-- A step of one worker, seen from all of them. -/
theorem tracked_of_worker {next : Option Phase} (h : Tracked past s)
    (hworkers : s'.workers = Function.update s.workers n next)
    (hlabel : ∀ m, m ≠ n → ∀ baseUrl answer, label ≠ .list m baseUrl answer)
    (hrows : ∀ pair row, s'.row pair = some row → row.status = .sending ∨ SettledRow row)
    (hsettled : ∀ pair, Settled s pair → Settled s' pair)
    (hnext : ∀ phase, next = some phase → Tracks (past ++ [(s, label)]) s' n phase) :
    Tracked (past ++ [(s, label)]) s' := by
  refine ⟨hrows, ?_⟩
  intro m phase hphase
  rw [hworkers] at hphase
  rcases workers_update hphase with ⟨rfl, hnew⟩ | ⟨hm, hold⟩
  · exact hnext phase hnew
  · exact tracks_snoc (h.phases m phase hold) (hlabel m hm) hsettled

theorem tracked_of_rows {next : Option Phase} (h : Tracked past s)
    (hworkers : s'.workers = Function.update s.workers n next)
    (hlabel : ∀ m, m ≠ n → ∀ baseUrl answer, label ≠ .list m baseUrl answer)
    (hrow : ∀ pair, s'.row pair = s.row pair)
    (hnext : ∀ phase, next = some phase → Tracks (past ++ [(s, label)]) s' n phase) :
    Tracked (past ++ [(s, label)]) s' := by
  refine tracked_of_worker h hworkers hlabel ?_ (settled_of_rows hrow) hnext
  intro pair row hfound
  rw [hrow] at hfound
  exact h.rows pair row hfound

theorem tracked_list {baseUrl : String} {answer : Answer} (h : Tracked past s)
    (hstep : stepList s n baseUrl answer = some s') :
    Tracked (past ++ [(s, .list n baseUrl answer)]) s' := by
  unfold stepList at hstep
  split at hstep
  · rename_i e hphase
    obtain rfl := Option.some.inj hstep
    refine tracked_of_rows h rfl (by simp [eq_comm]) (fun _ => rfl) ?_
    intro phase hnext
    have hlisted : ListedAt (past ++ [(s, .list n baseUrl answer)]) n e s :=
      ⟨past, baseUrl, answer, [], rfl, hphase, by simp⟩
    split at hnext
    · unfold listed at hnext
      dsimp only at hnext
      split at hnext
      · rename_i hnone
        obtain rfl := Option.some.inj hnext
        refine ⟨s, hlisted, ?_⟩
        intro channel hmem
        rw [hnone] at hmem
        contradiction
      · split at hnext
        · contradiction
        · obtain rfl := Option.some.inj hnext
          exact ⟨s, hlisted, fun channel hmem => Or.inl hmem⟩
    · contradiction
  · contradiction

theorem tracked_send {outside : Circumstances} {cache : Cache} (h : Tracked past s)
    (hsmooth : Smooth s (.send n outside cache) = true)
    (hstep : stepSend s n outside cache = some s') :
    Tracked (past ++ [(s, .send n outside cache)]) s' := by
  unfold stepSend at hstep
  split at hstep
  · rename_i loop channel hphase
    split at hstep
    · obtain rfl := Option.some.inj hstep
      refine tracked_of_rows h rfl (by simp) (fun _ => rfl) ?_
      intro phase hnext
      contradiction
    · rename_i result hsend
      obtain rfl := Option.some.inj hstep
      refine tracked_of_rows h rfl (by simp) (fun _ => rfl) ?_
      intro phase hnext
      obtain rfl := Option.some.inj hnext
      have hcovers : Covers past s n loop [channel] := h.phases n _ hphase
      refine ⟨covers_snoc _ hcovers (by simp) (settled_of_rows fun _ => rfl), ?_⟩
      simpa only [Smooth, hphase, hsend, Bool.or_eq_true, Bool.not_eq_true'] using hsmooth
  · contradiction

theorem settled_finished {channel : Channel} {result : Result} {error : Option String}
    {row : Delivery} (hpair : row.channelId = channel.id ∧ row.eventId = loop.envelope.id)
    (hresult : result.ok = true ∨ retryable result.status = false) :
    SettledRow (row.finished channel.id loop.envelope.id result.ok result.status error) := by
  have hsame : row.isOf channel.id loop.envelope.id = true := by simpa [Delivery.isOf] using hpair
  unfold Delivery.finished
  rw [if_pos hsame]
  rcases hresult with hok | hlasting
  · exact Or.inl (by simp [hok])
  · cases hok : result.ok with
    | true => exact Or.inl (by simp)
    | false => exact Or.inr ⟨by simp, hlasting⟩

theorem tracked_finished (error : Option String) {channel : Channel} {result : Result}
    {next : Option Phase} (h : Tracked past s) (hlabel : ∀ m url answer, label ≠ .list m url answer)
    (hphase : s.workers n = some (.finishing loop channel result))
    (hkept : s.row (pairOf loop channel) ≠ none)
    (hworkers : s'.workers = Function.update s.workers n next)
    (hnext : ∀ phase, next = some phase → phase = .claiming loop)
    (hrow : ∀ pair, s'.row pair = (s.row pair).map
      (Delivery.finished channel.id loop.envelope.id result.ok result.status error)) :
    Tracked (past ++ [(s, label)]) s' := by
  obtain ⟨hcovers, hresult⟩ : Tracks past s n (.finishing loop channel result) :=
    h.phases n _ hphase
  -- a row of the pair is settled now, any other is as it was
  have hfinished : ∀ row : Delivery,
      SettledRow (row.finished channel.id loop.envelope.id result.ok result.status error) ∨
      row.finished channel.id loop.envelope.id result.ok result.status error = row := by
    intro row
    by_cases hpair : row.isOf channel.id loop.envelope.id = true
    · refine Or.inl (settled_finished ?_ hresult)
      simpa [Delivery.isOf] using hpair
    · exact Or.inr (if_neg hpair)
  have hsettled : ∀ pair, Settled s pair → Settled s' pair := by
    rintro pair ⟨row, hfound, hsettled⟩
    refine ⟨_, by rw [hrow, hfound]; rfl, ?_⟩
    rcases hfinished row with hnow | hsame
    · exact hnow
    · rwa [hsame]
  refine tracked_of_worker h hworkers (fun m _ => hlabel m) ?_ hsettled ?_
  · intro pair row' hfound
    rw [hrow] at hfound
    obtain ⟨row, hbefore, rfl⟩ := Option.map_eq_some_iff.mp hfound
    rcases hfinished row with hnow | hsame
    · exact Or.inr hnow
    · rw [hsame]
      exact h.rows pair row hbefore
  · intro phase hphase'
    rw [hnext phase hphase']
    obtain ⟨t, hlisted, hcovered⟩ := covers_snoc _ hcovers (hlabel n) hsettled
    refine ⟨t, hlisted, ?_⟩
    intro other hmem
    rcases hcovered other hmem with hother | hother
    · rcases List.mem_cons.mp hother with rfl | hrest
      · obtain ⟨row, hfound⟩ := Option.ne_none_iff_exists'.mp hkept
        refine Or.inr ⟨_, by rw [hrow, hfound]; rfl, ?_⟩
        exact settled_finished (isOf_of_delivery? hfound) hresult
      · exact Or.inl hrest
    · exact Or.inr hother

theorem afterFinish_of_lasting {channel : Channel} {result : Result}
    (hresult : result.ok = true ∨ retryable result.status = false) :
    afterFinish loop channel result = .claiming loop := by
  unfold afterFinish
  split
  · rfl
  · rename_i hok
    rw [if_neg]
    simpa using hresult.resolve_left hok

theorem tracked_finish {answer : Answer} (hsafe : Safe past s) (h : Tracked past s)
    (hstep : stepFinish s n answer = some s') :
    Tracked (past ++ [(s, .finish n answer)]) s' := by
  unfold stepFinish at hstep
  split at hstep
  · rename_i loop channel result hphase
    obtain rfl := Option.some.inj hstep
    by_cases hanswer : answer = .refused
    · refine tracked_of_rows h rfl (by simp) ?_ ?_
      · intro pair
        simp only [System.row, System.answered, if_pos hanswer]
      · intro phase hnext
        rw [hanswer] at hnext
        contradiction
    · refine tracked_finished (if result.ok then none else result.error) h (by simp) hphase
        (hsafe.row n _ ⟨_, hphase, rfl⟩) rfl ?_ ?_
      · intro phase hnext
        split at hnext
        · obtain rfl := Option.some.inj hnext
          exact afterFinish_of_lasting (h.phases n _ hphase).2
        · contradiction
      · intro pair
        simp only [System.row, System.answered, if_neg hanswer]
        exact delivery?_finish
  · contradiction

theorem tracked_claim {answer : Answer} (h : Tracked past s)
    (hsmooth : Smooth s (.claim n answer) = true)
    (hstep : stepClaim s n answer = some s') : Tracked (past ++ [(s, .claim n answer)]) s' := by
  unfold stepClaim at hstep
  split at hstep
  · rename_i loop hphase
    split at hstep
    · contradiction
    · rename_i channel rest hrest
      let claimed := claim s.deliveries channel.id loop.envelope.id loop.envelope.type.name
      have hs' : s.answered n answer claimed.2
          (if claimed.1 then .sending { loop with rest := rest } channel
            else .claiming { loop with rest := rest }) = s' := Option.some.inj hstep
      have hcovers : Covers past s n loop [] := h.phases n _ hphase
      have hnew : ∀ pair row, s'.row pair = some row →
          row.status = .sending ∨ s.row pair = some row := by
        intro pair row hfound
        simp only [← hs', System.row, System.answered] at hfound
        split at hfound
        · exact Or.inr hfound
        · rw [delivery?_claim] at hfound
          split at hfound
          · obtain rfl := Option.some.inj hfound
            exact Or.inl rfl
          · exact Or.inr hfound
      have hkept : ∀ pair row, s.row pair = some row → s'.row pair = some row := by
        intro pair row hfound
        simp only [← hs', System.row, System.answered]
        split
        · exact hfound
        · rw [delivery?_claim, if_neg]
          · exact hfound
          · rintro ⟨hwon, hchannel, hevent⟩
            have hnone : s.row pair = none := by
              unfold System.row
              rw [hchannel, hevent]
              exact claim_wins_iff.mp hwon
            rw [hnone] at hfound
            contradiction
      have hsettled : ∀ pair, Settled s pair → Settled s' pair := by
        rintro pair ⟨row, hfound, hrow⟩
        exact ⟨row, hkept pair row hfound, hrow⟩
      refine tracked_of_worker h (n := n) (by rw [← hs']; rfl) (by simp) ?_ hsettled ?_
      · intro pair row hfound
        rcases hnew pair row hfound with hsending | hold
        · exact Or.inl hsending
        · exact h.rows pair row hold
      · intro phase hnext
        obtain ⟨t, hlisted, hcovered⟩ :=
          covers_snoc (.claim n answer) hcovers (by simp) hsettled
        rw [hrest] at hcovered
        split at hnext
        · obtain rfl := Option.some.inj hnext
          cases hwon : claimed.1 with
          | true => exact ⟨t, hlisted, hcovered⟩
          | false =>
              refine ⟨t, hlisted, ?_⟩
              intro other hmem
              rcases hcovered other hmem with hother | hother
              · rcases List.mem_cons.mp hother with rfl | hother
                · -- the claim met a row, and it is not one in sending
                  have htaken : s.row (pairOf loop other) ≠ none := by
                    intro hnone
                    have hwins : claimed.1 = true := claim_wins_iff.mpr hnone
                    rw [hwins] at hwon
                    contradiction
                  obtain ⟨row, hfound⟩ := Option.ne_none_iff_exists'.mp htaken
                  have hnot : row.status ≠ .sending := by
                    simpa [Smooth, hphase, hrest, hfound] using hsmooth
                  have hrow := (h.rows _ row hfound).resolve_left hnot
                  exact Or.inr (hsettled _ ⟨row, hfound, hrow⟩)
                · exact Or.inl hother
              · exact Or.inr hother
        · contradiction
  · contradiction

theorem tracked_step (hsafe : Safe past s) (h : Tracked past s) (hsmooth : Smooth s label = true)
    (hstep : step s label = some s') : Tracked (past ++ [(s, label)]) s' := by
  cases label with
  | subscribe channel =>
      simp only [step] at hstep
      split at hstep
      · contradiction
      · obtain rfl := Option.some.inj hstep
        refine ⟨h.rows, ?_⟩
        intro m phase hphase
        exact tracks_snoc (h.phases m phase hphase) (by simp) (settled_of_rows fun _ => rfl)
  | deliver n e =>
      simp only [step] at hstep
      split at hstep
      · obtain rfl := Option.some.inj hstep
        refine tracked_of_rows h rfl (by simp) (fun _ => rfl) ?_
        intro phase hnext
        obtain rfl := Option.some.inj hnext
        trivial
      · contradiction
  | list n baseUrl answer => exact tracked_list h hstep
  | claim n answer => exact tracked_claim h hsmooth hstep
  | send n outside cache => exact tracked_send h hsmooth hstep
  | finish n answer => exact tracked_finish hsafe h hstep
  | release n answer =>
      simp only [step, stepRelease] at hstep
      split at hstep
      · rename_i loop channel hphase
        exact absurd (h.phases n _ hphase) id
      · contradiction
  | acknowledge n =>
      simp only [step, stepAcknowledge] at hstep
      split at hstep
      · split at hstep
        · obtain rfl := Option.some.inj hstep
          exact tracked_of_rows h rfl (by simp) (fun _ => rfl) (by simp)
        · contradiction
      · contradiction
  | crash n =>
      obtain rfl := Option.some.inj hstep
      exact tracked_of_rows h rfl (by simp) (fun _ => rfl) (by simp)

theorem tracked_of_run (run : Run step System.initial past s)
    (hsmooth : ∀ moment ∈ past, Smooth moment.1 moment.2 = true) : Tracked past s := by
  induction run with
  | refl => exact tracked_initial
  | snoc run hstep ih =>
      have hbefore := ih fun moment hmem => hsmooth moment (List.mem_append_left _ hmem)
      have hnow := hsmooth _ (List.mem_append_right _ (List.mem_singleton_self _))
      exact tracked_step (safe_of_run run) hbefore hnow hstep

end Steps

theorem nothing_lost {past : List (System × Label)} {s : System}
    (run : Run step System.initial past s)
    (hsmooth : ∀ moment ∈ past, Smooth moment.1 moment.2 = true) : NothingLost past := by
  rintro before s n loop after rfl hphase
  obtain ⟨-, -, s', -, -, hstep, -⟩ := run.moment (List.mem_append_right _ List.mem_cons_self)
  have hrest : loop.rest = [] := by
    simp only [step, stepAcknowledge, hphase] at hstep
    split at hstep
    · assumption
    · contradiction
  have htracked := tracked_of_run run.before fun moment hmem =>
    hsmooth moment (List.mem_append_left _ hmem)
  obtain ⟨t, hlisted, hcovered⟩ : Covers before s n loop [] := htracked.phases n _ hphase
  refine ⟨t, hlisted, ?_⟩
  intro channel hmem
  refine (hcovered channel hmem).resolve_left ?_
  simp [hrest]

/-- The mail server is not configured, nor is anything else. -/
def unconfigured : Circumstances := answering 200

def mailbox : Channel where
  id := "m"
  tenantId := some "t"
  kind := "email"
  target := "owner@shop.ir"

/-- A webhook refuses the message for good, another worker meets its row, and
the mail is sent. -/
def toldBoth : List Label :=
  [.subscribe hook, .subscribe mailbox,
   .deliver 0 rendered, .list 0 "" .done, .claim 0 .done, .send 0 (answering 410) [],
   .finish 0 .done,
   .claim 0 .done, .send 0 { answering 200 with smtpHost := some "smtp.shop.ir" } [],
   .finish 0 .done, .acknowledge 0,
   .deliver 1 rendered, .list 1 "" .done, .claim 1 .done, .claim 1 .done, .acknowledge 1]

theorem nothing_lost_toldBoth :
    ∃ (past : List (System × Label)) (s : System), past.map Prod.snd = toldBoth ∧
      s.acked.length = 2 ∧ NothingLost past := by
  obtain ⟨past, s, hlabels, run, hcheck⟩ :=
    Run.of_check step System.initial toldBoth
      (fun past s => s.acked.length = 2 && past.all fun moment => Smooth moment.1 moment.2)
      (by decide +kernel)
  simp only [Bool.and_eq_true, decide_eq_true_eq] at hcheck
  exact ⟨past, s, hlabels, hcheck.1, nothing_lost run (List.all_eq_true.mp hcheck.2)⟩

/-- The webhook answers 503, and nobody has configured a mail server. -/
def givenBack : List Label :=
  [.subscribe hook, .subscribe mailbox,
   .deliver 0 rendered, .list 0 "" .done,
   .claim 0 .done, .send 0 (answering 503) [], .finish 0 .done, .release 0 .done,
   .claim 0 .done, .send 0 unconfigured [], .finish 0 .done, .release 0 .done,
   .acknowledge 0]

/-- The process dies in the send, and another worker meets the row. -/
def leftSending : List Label :=
  [.subscribe hook, .deliver 0 rendered, .list 0 "" .done, .claim 0 .done, .crash 0,
   .deliver 1 rendered, .list 1 "" .done, .claim 1 .done, .acknowledge 1]

/-- The run ends with an acknowledgement, with the channel subscribed all along
and with no row for it but one in sending. -/
def endsWithout (channel : Channel) (past : List (System × Label)) : Bool :=
  match past.reverse with
  | (s, .acknowledge n) :: before =>
      match s.workers n with
      | some (.claiming loop) =>
          (before.all fun moment =>
            match moment.2 with
            | .list .. => (subscribedTo moment.1.channels loop.envelope).contains channel
            | _ => true) &&
          (s.row (pairOf loop channel)).all fun row => row.status = .sending
      | _ => false
  | _ => false

theorem not_nothingLost_of_endsWithout {channel : Channel} {past : List (System × Label)}
    (h : endsWithout channel past = true) : ¬ NothingLost past := by
  intro hnothing
  unfold endsWithout at h
  split at h
  · rename_i s n reversed hreverse
    split at h
    · rename_i loop hphase
      simp only [Bool.and_eq_true, List.all_eq_true] at h
      obtain ⟨hlists, hrow⟩ := h
      have hpast : past = reversed.reverse ++ (s, .acknowledge n) :: [] := by
        simpa using congrArg List.reverse hreverse
      obtain ⟨t, ⟨before, baseUrl, answer, after, hbefore, -, -⟩, hsettled⟩ :=
        hnothing reversed.reverse s n loop [] hpast hphase
      have hmem : (t, Label.list n baseUrl answer) ∈ reversed := by
        rw [← List.mem_reverse, hbefore]
        exact List.mem_append_right _ List.mem_cons_self
      have hsubscribed := hlists _ hmem
      obtain ⟨row, hfound, hrest⟩ :=
        hsettled channel (by simpa using hsubscribed)
      have hsending : row.status = .sending := by simpa [hfound] using hrow
      rcases hrest with hsent | ⟨hfailed, -⟩
      · rw [hsending] at hsent
        contradiction
      · rw [hsending] at hfailed
        contradiction
    · contradiction
  · contradiction

theorem lost_silently :
    (∃ (past : List (System × Label)) (s : System), past.map Prod.snd = givenBack ∧
      Run step System.initial past s ∧ s.deliveries.rows = [] ∧ ¬ NothingLost past) ∧
    ∃ (past : List (System × Label)) (s : System), past.map Prod.snd = leftSending ∧
      Run step System.initial past s ∧ s.deliveries.rows.map (·.status) = [.sending] ∧
      ¬ NothingLost past := by
  constructor
  · obtain ⟨past, s, hlabels, run, hcheck⟩ :=
      Run.of_check step System.initial givenBack
        (fun past s => s.deliveries.rows = [] && endsWithout mailbox past) (by decide +kernel)
    simp only [Bool.and_eq_true, decide_eq_true_eq] at hcheck
    exact ⟨past, s, hlabels, run, hcheck.1, not_nothingLost_of_endsWithout hcheck.2⟩
  · obtain ⟨past, s, hlabels, run, hcheck⟩ :=
      Run.of_check step System.initial leftSending
        (fun past s => s.deliveries.rows.map (·.status) = [.sending] && endsWithout hook past)
        (by decide +kernel)
    simp only [Bool.and_eq_true, decide_eq_true_eq] at hcheck
    exact ⟨past, s, hlabels, run, hcheck.1, not_nothingLost_of_endsWithout hcheck.2⟩

end SeoPlatform.Notifications.Reach
