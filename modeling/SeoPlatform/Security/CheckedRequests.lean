import SeoPlatform.Crawler.Fetching
import SeoPlatform.Foundation.TransitionSystem
import SeoPlatform.Notifications.Channels

namespace SeoPlatform.Security.CheckedRequests

open SeoPlatform.Crawler.Fetching
open SeoPlatform.Foundation.IpAddress
open SeoPlatform.Foundation.TransitionSystem
open SeoPlatform.Foundation.UrlText
open SeoPlatform.Foundation.UrlParse
open SeoPlatform.Notifications.Channels (sendWebhook)
open SeoPlatform.Shared.Exceptions
open SeoPlatform.Shared.Netguard
open SeoPlatform.Shared.Outbound

/-- What a process does that requests urls: a fetcher loads `robots.txt`, fetches
a page, a sitemap or a probe, or tries a link; a webhook is sent. -/
inductive Label where
  | loadRobots (fetcher : Nat) (rules : TextRules) (exchange : Exchange) (origin : String)
  | fetch (outside : Circumstances) (timeout : Nat) (url : String) (method : Method)
  | checkStatus (first second : Circumstances) (timeout : Nat) (url : String)
  | sendWebhook (outside : Circumstances) (target : String)

/-- A process, and the fetchers of its crawls. -/
structure System where
  wire : Wire
  fetchers : Nat → Fetcher

def System.initial : System where
  wire := { cache := [], trace := [] }
  fetchers _ := {}

def step (s : System) : Label → Option System
  | .loadRobots n rules exchange origin =>
      let (_, fetcher, wire) := loadRobots rules exchange (s.fetchers n) s.wire origin
      some { wire := wire, fetchers := Function.update s.fetchers n fetcher }
  | .fetch outside timeout url method =>
      some { s with
        wire := (fetch outside.env timeout outside.exchange s.wire url method).2 }
  | .checkStatus first second timeout url =>
      some { s with wire := (checkStatus first second timeout s.wire url).2 }
  | .sendWebhook outside target =>
      some { s with wire := (sendWebhook outside.env outside.exchange s.wire target).2 }

/-- Of what follows `seen`, every requested url was accepted before. -/
def GuardedAfter : List Event → List Event → Prop
  | _, [] => True
  | seen, .checked url accepted :: rest => GuardedAfter (seen ++ [.checked url accepted]) rest
  | seen, .requested url :: rest =>
      .checked url true ∈ seen ∧ GuardedAfter (seen ++ [.requested url]) rest

/-- Every url that was requested had been accepted by `check_url` before. -/
def Guarded (trace : List Event) : Prop := GuardedAfter [] trace

/-- The check of the url covers what is requested for it: it is refused, or
servers redirect only to itself and to urls that were accepted before. -/
def CoveredRequest (outside : Circumstances) (wire : Wire) (url : String) : Prop :=
  accepts outside.env wire.cache url = true →
    ∀ hop ∈ outside.exchange.redirects, hop = url ∨ .checked hop true ∈ wire.trace

/-- The step requests no url but those that a check covers. `robots.txt` is
requested without one. -/
def Covered (s : System) : Label → Prop
  | .loadRobots n rules exchange origin =>
      (s.fetchers n).robotsLoaded = false →
        ∀ robotsUrl, urljoin rules origin "/robots.txt" = .ok robotsUrl →
          ∀ url ∈ exchange.requests robotsUrl, .checked url true ∈ s.wire.trace
  | .fetch outside _ url _ => CoveredRequest outside s.wire url
  | .checkStatus first second timeout url =>
      CoveredRequest first s.wire url ∧
        ∀ result, (fetch first.env timeout first.exchange s.wire url .head).1 = .ok result →
          result.fallsBack = true →
            CoveredRequest second
              (fetch first.env timeout first.exchange s.wire url .head).2 url
  | .sendWebhook outside target => CoveredRequest outside s.wire target

theorem guardedAfter_append (seen first rest : List Event) :
    GuardedAfter seen (first ++ rest) ↔
      GuardedAfter seen first ∧ GuardedAfter (seen ++ first) rest := by
  induction first generalizing seen with
  | nil => simp [GuardedAfter]
  | cons event later ih =>
      cases event with
      | checked url accepted => simp [GuardedAfter, ih]
      | requested url => simp [GuardedAfter, ih, and_assoc]

/-- Requests are guarded by the checks before them all. -/
theorem guardedAfter_requests (seen : List Event) (urls : List String) :
    GuardedAfter seen (urls.map .requested) ↔ ∀ url ∈ urls, .checked url true ∈ seen := by
  induction urls generalizing seen with
  | nil => simp [GuardedAfter]
  | cons url rest ih =>
      have hseen : ∀ other, Event.checked other true ∈ seen ++ [.requested url] ↔
          .checked other true ∈ seen := by simp
      simp only [List.map_cons, GuardedAfter, ih, hseen]
      simp

theorem checked_of_guardedAfter {seen trace : List Event} (h : GuardedAfter seen trace)
    {url : String} (hurl : .requested url ∈ trace) : .checked url true ∈ seen ++ trace := by
  induction trace generalizing seen with
  | nil => contradiction
  | cons event rest ih =>
      rw [show seen ++ event :: rest = seen ++ [event] ++ rest by simp]
      cases event with
      | checked other accepted =>
          have hrest : Event.requested url ∈ rest := by simpa using hurl
          exact ih h hrest
      | requested other =>
          rcases List.mem_cons.mp hurl with heq | hrest
          · cases heq
            exact List.mem_append_left _ (List.mem_append_left _ h.1)
          · exact ih h.2 hrest

/-- In a guarded trace what was requested was accepted. -/
theorem checked_of_guarded {trace : List Event} (h : Guarded trace) {url : String}
    (hurl : .requested url ∈ trace) : .checked url true ∈ trace := by
  simpa using checked_of_guardedAfter h hurl

/-- What a guarded request leaves in the trace. -/
def guardedEvents (outside : Circumstances) (wire : Wire) (url : String) : List Event :=
  .checked url (accepts outside.env wire.cache url) ::
    if accepts outside.env wire.cache url then
      (outside.exchange.requests url).map .requested
    else []

theorem guarded_guardedEvents (outside : Circumstances) (wire : Wire) (url : String) :
    Guarded (wire.trace ++ guardedEvents outside wire url) ↔
      Guarded wire.trace ∧ CoveredRequest outside wire url := by
  unfold Guarded
  rw [guardedAfter_append, List.nil_append]
  apply and_congr_right
  intro _
  unfold guardedEvents CoveredRequest
  by_cases haccepts : accepts outside.env wire.cache url = true
  · simp only [haccepts, if_true, GuardedAfter, true_implies]
    rw [guardedAfter_requests]
    unfold Exchange.requests
    constructor
    · intro h hop hhop
      have hsent : outside.exchange.sent = true := by
        by_contra hnot
        simp [Exchange.redirects, hnot] at hhop
      have hmem := h hop (by simp [hsent, hhop])
      simpa [or_comm] using hmem
    · intro h other hother
      split at hother
      · rcases List.mem_cons.mp hother with rfl | hhop
        · simp
        · simpa [or_comm] using h other hhop
      · contradiction
  · simp [haccepts, GuardedAfter]

theorem trace_check (env : Surroundings) (wire : Wire) (url : String) :
    (check env wire url).2.trace = wire.trace ++ [.checked url (accepts env wire.cache url)] := rfl

theorem trace_fetch (outside : Circumstances) (timeout : Nat) (wire : Wire) (url : String)
    (method : Method) :
    (fetch outside.env timeout outside.exchange wire url method).2.trace =
      wire.trace ++ guardedEvents outside wire url := by
  have htrace := trace_check outside.env wire url
  have hanswer : accepts outside.env wire.cache url = (check outside.env wire url).1.isOk := rfl
  unfold fetch guardedEvents
  rw [hanswer] at htrace ⊢
  rcases hcheck : check outside.env wire url with ⟨answer, after⟩
  rw [hcheck] at htrace
  cases answer with
  | ok _ =>
      show after.trace ++ _ = _
      rw [htrace, List.append_assoc]
      rfl
  | error e => cases e <;> exact htrace

theorem trace_sendWebhook (outside : Circumstances) (wire : Wire) (target : String) :
    (sendWebhook outside.env outside.exchange wire target).2.trace =
      wire.trace ++ guardedEvents outside wire target := by
  have htrace := trace_check outside.env wire target
  have hanswer : accepts outside.env wire.cache target =
      (check outside.env wire target).1.isOk := rfl
  unfold sendWebhook guardedEvents
  rw [hanswer] at htrace ⊢
  rcases hcheck : check outside.env wire target with ⟨answer, after⟩
  rw [hcheck] at htrace
  cases answer with
  | ok _ =>
      show after.trace ++ _ = _
      rw [htrace, List.append_assoc]
      rfl
  | error e => exact htrace

theorem trace_loadRobots_of_loaded {rules : TextRules} {exchange : Exchange} {fetcher : Fetcher}
    {wire : Wire} {origin : String} (h : fetcher.robotsLoaded = true) :
    (loadRobots rules exchange fetcher wire origin).2.2.trace = wire.trace := by
  unfold loadRobots
  rw [if_pos h]

theorem trace_loadRobots {rules : TextRules} {exchange : Exchange} {fetcher : Fetcher}
    {wire : Wire} {origin robotsUrl : String} (h : fetcher.robotsLoaded = false)
    (hurl : urljoin rules origin "/robots.txt" = .ok robotsUrl) :
    (loadRobots rules exchange fetcher wire origin).2.2.trace =
      wire.trace ++ (exchange.requests robotsUrl).map .requested := by
  unfold loadRobots
  rw [if_neg (by simp [h]), hurl]
  dsimp only
  cases exchange.ending with
  | response response =>
      dsimp only
      split <;> rfl
  | tooManyRedirects | timeout | requestException => rfl

theorem trace_loadRobots_of_error {rules : TextRules} {exchange : Exchange} {fetcher : Fetcher}
    {wire : Wire} {origin text : String} (h : fetcher.robotsLoaded = false)
    (hurl : urljoin rules origin "/robots.txt" = .error text) :
    (loadRobots rules exchange fetcher wire origin).2.2.trace = wire.trace := by
  unfold loadRobots
  rw [if_neg (by simp [h]), hurl]

section Steps

variable {s s' : System} {label : Label}

theorem guarded_loadRobots {n : Nat} {rules : TextRules} {exchange : Exchange} {origin : String} :
    Guarded (loadRobots rules exchange (s.fetchers n) s.wire origin).2.2.trace ↔
      Guarded s.wire.trace ∧ Covered s (.loadRobots n rules exchange origin) := by
  cases hloaded : (s.fetchers n).robotsLoaded with
  | true =>
      rw [trace_loadRobots_of_loaded hloaded]
      simp [Covered, hloaded]
  | false =>
      cases hurl : urljoin rules origin "/robots.txt" with
      | error text =>
          rw [trace_loadRobots_of_error hloaded hurl]
          simp [Covered, hurl]
      | ok robotsUrl =>
          rw [trace_loadRobots hloaded hurl]
          unfold Guarded
          rw [guardedAfter_append, List.nil_append, guardedAfter_requests]
          simp [Covered, hloaded, hurl]

theorem guarded_checkStatus {first second : Circumstances} {timeout : Nat} {wire : Wire}
    {url : String} :
    Guarded (checkStatus first second timeout wire url).2.trace ↔
      Guarded wire.trace ∧ CoveredRequest first wire url ∧
        ∀ result, (fetch first.env timeout first.exchange wire url .head).1 = .ok result →
          result.fallsBack = true →
            CoveredRequest second
              (fetch first.env timeout first.exchange wire url .head).2 url := by
  have hfirst : Guarded (fetch first.env timeout first.exchange wire url .head).2.trace ↔
      Guarded wire.trace ∧ CoveredRequest first wire url := by
    rw [trace_fetch]
    exact guarded_guardedEvents first wire url
  unfold checkStatus
  rcases hfetch : fetch first.env timeout first.exchange wire url .head with ⟨answer, after⟩
  rw [hfetch] at hfirst
  cases answer with
  | error e => simpa using hfirst
  | ok result =>
      simp only [Except.ok.injEq, forall_eq']
      by_cases hfalls : result.fallsBack = true
      · have hsecond := guarded_guardedEvents second after url
        rw [← trace_fetch second timeout after url .get] at hsecond
        rw [if_pos hfalls]
        rcases hagain : fetch second.env timeout second.exchange after url .get with
          ⟨answer', last⟩
        rw [hagain] at hsecond
        cases answer' <;> simp only [hsecond, hfirst, hfalls, true_implies, and_assoc]
      · rw [if_neg hfalls]
        simpa [hfalls] using hfirst

/-- A step keeps the trace guarded exactly where it is covered. -/
theorem guarded_step (hstep : step s label = some s') :
    Guarded s'.wire.trace ↔ Guarded s.wire.trace ∧ Covered s label := by
  cases label with
  | loadRobots n rules exchange origin =>
      cases hstep
      exact guarded_loadRobots
  | fetch outside timeout url method =>
      cases hstep
      show Guarded (fetch outside.env timeout outside.exchange s.wire url method).2.trace ↔ _
      rw [trace_fetch]
      exact guarded_guardedEvents outside s.wire url
  | checkStatus first second timeout url =>
      cases hstep
      exact guarded_checkStatus
  | sendWebhook outside target =>
      cases hstep
      show Guarded (sendWebhook outside.env outside.exchange s.wire target).2.trace ↔ _
      rw [trace_sendWebhook]
      exact guarded_guardedEvents outside s.wire target

end Steps

/-- Nothing was requested unchecked in a run exactly where every step of it was
covered. -/
theorem guarded_iff {past : List (System × Label)} {s : System}
    (run : Run step System.initial past s) :
    Guarded s.wire.trace ↔ ∀ moment ∈ past, Covered moment.1 moment.2 := by
  induction run with
  | refl => exact iff_of_true trivial fun _ h => by contradiction
  | snoc run hstep ih =>
      rw [guarded_step hstep, ih]
      simp only [List.mem_append, List.mem_singleton, or_imp, forall_and, forall_eq]

def asciiRules : TextRules where
  lower := String.map Char.toLower
  casefold := String.map Char.toLower
  netlocFault _ := none

/-- A resolver that knows one host. -/
def surroundings : Surroundings where
  rules := asciiRules
  setting := none
  resolver host :=
    if host = "example.com" then .found [⟨"93.184.216.34", some (.v4 (ipv4 93 184 216 34))⟩]
    else .gaierror "Name or service not known"

def page : Response where
  status := 200
  headers := [("content-type", "text/html")]
  body := .ok { size := 13, text := "<html></html>" }

/-- Two pages of a site, the second by a redirect to the first. -/
def coveredCrawl : List Label :=
  [.fetch ⟨surroundings, { ending := .response page }⟩ 20 "https://example.com/" .get,
   .fetch ⟨surroundings, { hops := [(301, "https://example.com/")], ending := .response page }⟩ 20
     "https://example.com/home" .get]

/-- The steps as the boolean check of a run. -/
def isCovered (moment : System × Label) : Bool :=
  match moment.2 with
  | .fetch outside _ url _ =>
      outside.exchange.redirects.all fun hop =>
        hop = url || moment.1.wire.trace.contains (.checked hop true)
  | _ => false

theorem covered_of_isCovered {moment : System × Label} (h : isCovered moment = true) :
    Covered moment.1 moment.2 := by
  rcases moment with ⟨s, label⟩
  cases label with
  | fetch outside timeout url method =>
      intro _ hop hhop
      simpa using List.all_eq_true.mp h hop hhop
  | loadRobots | checkStatus | sendWebhook => contradiction

theorem guarded_iff_coveredCrawl :
    ∃ (past : List (System × Label)) (s : System), past.map Prod.snd = coveredCrawl ∧
      Run step System.initial past s ∧ Guarded s.wire.trace := by
  obtain ⟨past, s, hlabels, run, hcheck⟩ :=
    Run.of_check step System.initial coveredCrawl (fun past _ => past.all isCovered)
      (by decide +kernel)
  refine ⟨past, s, hlabels, run, (guarded_iff run).mpr ?_⟩
  intro moment hmem
  exact covered_of_isCovered (List.all_eq_true.mp hcheck moment hmem)

/-- An outside page, and one webhook target, lead to the metadata service; and
the robots file of a site is requested. -/
def steered : List Label :=
  [.loadRobots 0 asciiRules { ending := .response page } "https://example.com",
   .fetch ⟨surroundings, {
      hops := [(302, "http://169.254.169.254/latest/meta-data/")]
      ending := .response page }⟩ 20 "https://example.com/" .get,
   .sendWebhook ⟨surroundings, {
      hops := [(307, "http://10.0.0.5/admin")]
      ending := .response page }⟩ "https://example.com/hook"]

/-- Three urls are requested, by the crawler and by the webhook, that were never
accepted. -/
theorem requested_unchecked :
    ∃ (past : List (System × Label)) (s : System), past.map Prod.snd = steered ∧
      Run step System.initial past s ∧
      (∀ url ∈ ["https://example.com/robots.txt", "http://169.254.169.254/latest/meta-data/",
          "http://10.0.0.5/admin"],
        .requested url ∈ s.wire.trace ∧ .checked url true ∉ s.wire.trace) ∧
      ¬ Guarded s.wire.trace := by
  obtain ⟨past, s, hlabels, run, hcheck⟩ :=
    Run.of_check step System.initial steered
      (fun _ s => ["https://example.com/robots.txt", "http://169.254.169.254/latest/meta-data/",
          "http://10.0.0.5/admin"].all fun url =>
        s.wire.trace.contains (.requested url) && !s.wire.trace.contains (.checked url true))
      (by decide +kernel)
  have hurls : ∀ url ∈ ["https://example.com/robots.txt",
      "http://169.254.169.254/latest/meta-data/", "http://10.0.0.5/admin"],
      .requested url ∈ s.wire.trace ∧ .checked url true ∉ s.wire.trace := by
    intro url hurl
    simpa using List.all_eq_true.mp hcheck url hurl
  refine ⟨past, s, hlabels, run, hurls, ?_⟩
  intro hguarded
  obtain ⟨hrequested, hunchecked⟩ := hurls _ (List.mem_cons_self)
  exact hunchecked (checked_of_guarded hguarded hrequested)

end SeoPlatform.Security.CheckedRequests
