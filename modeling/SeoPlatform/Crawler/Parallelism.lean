import SeoPlatform.Crawler.Crawling
import SeoPlatform.Foundation.ExceptFlow

namespace SeoPlatform.Crawler.Parallelism

open SeoPlatform.Crawler.Crawling
open SeoPlatform.Crawler.Fetching
open SeoPlatform.Crawler.Models
open SeoPlatform.Foundation.ExceptFlow
open SeoPlatform.Foundation.ThreadPool
open SeoPlatform.Foundation.UrlText
open SeoPlatform.Shared.Exceptions

/-- How a url of the frontier is fetched and folded into the search. -/
abbrev Visit := Progress → String × Nat → Except Exn Progress

inductive Turn where
  | ends
  | raises
  | goes (after : Progress)

/-- One turn of the plain search: the url at the front of the frontier is dropped
where it is too deep, noted where it is refused, and visited elsewhere. -/
def turn (maxPages maxDepth : Nat) (allowed : String → Bool) (visit : Visit) (s : Progress) :
    Turn :=
  match s.frontier with
  | [] => .ends
  | (url, depth) :: rest =>
      if maxPages ≤ s.pages.length then .ends
      else if maxDepth < depth then .goes { s with frontier := rest }
      else if !allowed url then .goes { s with frontier := rest, blocked := s.blocked ++ [url] }
      else
        match visit { s with frontier := rest } (url, depth) with
        | .error _ => .raises
        | .ok after => .goes after

/-- Where the plain sequential search ends, one url after the other: nothing is
found where a visit raises. -/
inductive BreadthFirst (maxPages maxDepth : Nat) (allowed : String → Bool) (visit : Visit) :
    Progress → Option Progress → Prop
  | ends {s : Progress} (h : turn maxPages maxDepth allowed visit s = .ends) :
      BreadthFirst maxPages maxDepth allowed visit s (some s)
  | raises {s : Progress} (h : turn maxPages maxDepth allowed visit s = .raises) :
      BreadthFirst maxPages maxDepth allowed visit s none
  | goes {s after : Progress} {found : Option Progress}
      (h : turn maxPages maxDepth allowed visit s = .goes after)
      (later : BreadthFirst maxPages maxDepth allowed visit after found) :
      BreadthFirst maxPages maxDepth allowed visit s found

/-- The plain search ends in one way. -/
theorem breadthFirst_unique {maxPages maxDepth : Nat} {allowed : String → Bool} {visit : Visit}
    {s : Progress} {found other : Option Progress}
    (h : BreadthFirst maxPages maxDepth allowed visit s found)
    (h' : BreadthFirst maxPages maxDepth allowed visit s other) : found = other := by
  induction h with
  | ends hturn =>
      cases h' with
      | ends => rfl
      | raises hturn' | goes hturn' =>
          rw [hturn] at hturn'
          contradiction
  | raises hturn =>
      cases h' with
      | raises => rfl
      | ends hturn' | goes hturn' =>
          rw [hturn] at hturn'
          contradiction
  | goes hturn _ ih =>
      cases h' with
      | ends hturn' | raises hturn' =>
          rw [hturn] at hturn'
          contradiction
      | goes hturn' later =>
          rw [hturn] at hturn'
          cases hturn'
          exact ih later

/-- A fetch, and what becomes of it. -/
def visit (site : Site) (config : CrawlConfig) (origin : String) : Visit := fun s item => do
  let result ← site.fetch item.1
  absorb site config origin s item result

/-- The search of a crawl as the plain search. -/
abbrev Sequential (site : Site) (config : CrawlConfig) (origin : String) :
    Progress → Option Progress → Prop :=
  BreadthFirst config.maxPages config.maxDepth site.allowed (visit site config origin)

section Frames

/-- A change to the search that a visit does not see: more at the front of the
frontier, more that is blocked. -/
structure Unseen (g : Progress → Progress) : Prop where
  push : ∀ s target depth, (g s).push target depth = g (s.push target depth)
  page : ∀ s page, { g s with pages := (g s).pages ++ [page] } =
    g { s with pages := s.pages ++ [page] }

def Progress.front (item : String × Nat) (s : Progress) : Progress :=
  { s with frontier := item :: s.frontier }

def Progress.refusing (url : String) (s : Progress) : Progress :=
  { s with blocked := s.blocked ++ [url] }

theorem front_unseen (item : String × Nat) : Unseen (Progress.front item) := by
  refine ⟨?_, fun _ _ => rfl⟩
  intro s target depth
  unfold Progress.push Progress.front
  split <;> rfl

theorem refusing_unseen (url : String) : Unseen (Progress.refusing url) := by
  refine ⟨?_, fun _ _ => rfl⟩
  intro s target depth
  unfold Progress.push Progress.refusing
  dsimp only
  split <;> rfl

variable {site : Site} {config : CrawlConfig} {origin : String} {g : Progress → Progress}

theorem follow_unseen (h : Unseen g) (depth : Nat) (s : Progress) (link : LinkRef) :
    follow site depth (g s) link = (follow site depth s link).map g := by
  unfold follow
  split
  · rfl
  · cases isCrawlable site.rules link.href with
    | error e => rfl
    | ok crawlable =>
        cases crawlable with
        | false => rfl
        | true =>
            cases normalizeUrl site.rules link.href with
            | error e => rfl
            | ok target => exact congrArg Except.ok (h.push s target (depth + 1))

theorem absorb_unseen (h : Unseen g) (s : Progress) (item : String × Nat)
    (result : FetchResult) :
    absorb site config origin (g s) item result =
      (absorb site config origin s item result).map g := by
  have hpage : ∀ page : PageData,
      (if config.maxDepth ≤ item.2 || !page.isOk then
          Except.ok { g s with pages := (g s).pages ++ [page] }
        else page.links.foldlM (follow site item.2)
          { g s with pages := (g s).pages ++ [page] }) =
        (if config.maxDepth ≤ item.2 || !page.isOk then
            Except.ok { s with pages := s.pages ++ [page] }
          else page.links.foldlM (follow site item.2)
            { s with pages := s.pages ++ [page] }).map g := by
    intro page
    rw [h.page]
    split
    · rfl
    · exact foldlM_map (follow_unseen h item.2) page.links _
  unfold absorb
  dsimp only
  split
  · cases site.parsePage (resultToPage item.1 result item.2) origin config.followSubdomains with
    | error e => rfl
    | ok page => exact hpage page
  · exact hpage (resultToPage item.1 result item.2)

theorem visit_unseen (h : Unseen g) (s : Progress) (item : String × Nat) :
    visit site config origin (g s) item = (visit site config origin s item).map g := by
  unfold visit
  cases site.fetch item.1 with
  | error e => rfl
  | ok result => exact absorb_unseen h s item result

end Frames

section Counts

variable {site : Site} {config : CrawlConfig} {origin : String} {s s' : Progress}

theorem pages_push (target : String) (depth : Nat) : (s.push target depth).pages = s.pages := by
  unfold Progress.push
  split <;> rfl

/-- A link is queued, or nothing happens. -/
theorem follow_ok {depth : Nat} {link : LinkRef} (h : follow site depth s link = .ok s') :
    s' = s ∨ ∃ target, s' = s.push target (depth + 1) := by
  unfold follow at h
  split at h
  · exact .inl (Except.ok.inj h).symm
  · simp only [bind, Except.bind] at h
    split at h
    · cases h
    · split at h
      · exact .inl (Except.ok.inj h).symm
      · split at h
        · cases h
        · rename_i target _
          exact .inr ⟨target, (Except.ok.inj h).symm⟩

theorem pages_follow {depth : Nat} {link : LinkRef} (h : follow site depth s link = .ok s') :
    s'.pages = s.pages := by
  rcases follow_ok h with rfl | ⟨target, rfl⟩
  · rfl
  · exact pages_push target (depth + 1)

theorem pages_foldlM_follow {depth : Nat} {links : List LinkRef}
    (h : links.foldlM (follow site depth) s = .ok s') : s'.pages = s.pages := by
  induction links generalizing s with
  | nil =>
      cases h
      rfl
  | cons link rest ih =>
      rw [List.foldlM_cons] at h
      cases hfollow : follow site depth s link with
      | error e =>
          rw [hfollow] at h
          contradiction
      | ok after =>
          rw [hfollow] at h
          exact (ih h).trans (pages_follow hfollow)

/-- A visit makes one page. -/
theorem length_pages_visit {item : String × Nat}
    (h : visit site config origin s item = .ok s') :
    s'.pages.length = s.pages.length + 1 := by
  have hpage : ∀ page : PageData,
      (if config.maxDepth ≤ item.2 || !page.isOk then
          Except.ok { s with pages := s.pages ++ [page] }
        else page.links.foldlM (follow site item.2)
          { s with pages := s.pages ++ [page] }) = .ok s' →
        s'.pages.length = s.pages.length + 1 := by
    intro page hafter
    split at hafter
    · cases hafter
      simp
    · rw [pages_foldlM_follow hafter]
      simp
  unfold visit at h
  cases hfetch : site.fetch item.1 with
  | error e =>
      rw [hfetch] at h
      contradiction
  | ok result =>
      rw [hfetch] at h
      unfold absorb at h
      dsimp only [bind, Except.bind] at h
      split at h
      · split at h
        · contradiction
        · exact hpage _ h
      · exact hpage _ h

end Counts

section Batches

variable {site : Site} {config : CrawlConfig} {origin : String}

/-- A batch, visited one after the other. -/
def visitAll (site : Site) (config : CrawlConfig) (origin : String) (s : Progress)
    (batch : List (String × Nat)) : Except Exn Progress :=
  batch.foldlM (visit site config origin) s

theorem visitAll_unseen {g : Progress → Progress} (h : Unseen g) (s : Progress)
    (batch : List (String × Nat)) :
    visitAll site config origin (g s) batch = (visitAll site config origin s batch).map g :=
  foldlM_map (visit_unseen h) batch s

theorem length_pages_visitAll {batch : List (String × Nat)} {s s' : Progress}
    (h : visitAll site config origin s batch = .ok s') :
    s'.pages.length = s.pages.length + batch.length := by
  induction batch generalizing s with
  | nil =>
      cases h
      rfl
  | cons item rest ih =>
      unfold visitAll at h
      rw [List.foldlM_cons] at h
      cases hvisit : visit site config origin s item with
      | error e =>
          rw [hvisit] at h
          cases h
      | ok after =>
          rw [hvisit] at h
          rw [ih h, length_pages_visit hvisit, List.length_cons]
          omega

/-- The plain search ends so once the batch that was cut has been visited. -/
def EndsAfter (site : Site) (config : CrawlConfig) (origin : String) (s : Progress)
    (batch : List (String × Nat)) (found : Option Progress) : Prop :=
  match visitAll site config origin s batch with
  | .error _ => found = none
  | .ok after => Sequential site config origin after found

theorem endsAfter_error {s : Progress} {batch : List (String × Nat)} {found : Option Progress}
    {e : Exn} (h : visitAll site config origin s batch = .error e) :
    EndsAfter site config origin s batch found ↔ found = none := by
  unfold EndsAfter
  rw [h]

theorem endsAfter_ok {s after : Progress} {batch : List (String × Nat)}
    {found : Option Progress} (h : visitAll site config origin s batch = .ok after) :
    EndsAfter site config origin s batch found ↔ Sequential site config origin after found := by
  unfold EndsAfter
  rw [h]

theorem visitAll_snoc (s : Progress) (batch : List (String × Nat)) (item : String × Nat) :
    visitAll site config origin s (batch ++ [item]) =
      (visitAll site config origin s batch).bind fun after =>
        visit site config origin after item := by
  unfold visitAll
  rw [List.foldlM_append]
  cases batch.foldlM (visit site config origin) s with
  | error e => rfl
  | ok after =>
      show (visit site config origin after item).bind pure = visit site config origin after item
      cases visit site config origin after item <;> rfl

section Turns

variable {t : Progress} {batch : List (String × Nat)} {url : String} {depth : Nat}
  {found : Option Progress}

/-- While the batch is cut there is room for one more page. -/
theorem room_of_visitAll {after : Progress}
    (hroom : t.pages.length + batch.length < config.maxPages)
    (h : visitAll site config origin t batch = .ok after) :
    ¬ config.maxPages ≤ after.pages.length := by
  have hpages := length_pages_visitAll h
  omega

theorem endsAfter_deep (hroom : t.pages.length + batch.length < config.maxPages)
    (hdeep : config.maxDepth < depth) (h : EndsAfter site config origin t batch found) :
    EndsAfter site config origin (Progress.front (url, depth) t) batch found := by
  have hfront : visitAll site config origin (Progress.front (url, depth) t) batch =
      (visitAll site config origin t batch).map _ := visitAll_unseen (front_unseen _) t batch
  cases hall : visitAll site config origin t batch with
  | error e =>
      rw [hall] at hfront
      exact (endsAfter_error hfront).mpr ((endsAfter_error hall).mp h)
  | ok after =>
      rw [hall] at hfront
      refine (endsAfter_ok hfront).mpr (.goes ?_ ((endsAfter_ok hall).mp h))
      simp only [turn, Progress.front, if_neg (room_of_visitAll hroom hall), if_pos hdeep]

theorem endsAfter_refused (hroom : t.pages.length + batch.length < config.maxPages)
    (hdeep : ¬ config.maxDepth < depth) (hallowed : site.allowed url = false)
    (h : EndsAfter site config origin (Progress.refusing url t) batch found) :
    EndsAfter site config origin (Progress.front (url, depth) t) batch found := by
  have hfront : visitAll site config origin (Progress.front (url, depth) t) batch =
      (visitAll site config origin t batch).map _ := visitAll_unseen (front_unseen _) t batch
  have hrefusing : visitAll site config origin (Progress.refusing url t) batch =
      (visitAll site config origin t batch).map _ := visitAll_unseen (refusing_unseen url) t batch
  cases hall : visitAll site config origin t batch with
  | error e =>
      rw [hall] at hfront hrefusing
      exact (endsAfter_error hfront).mpr ((endsAfter_error hrefusing).mp h)
  | ok after =>
      rw [hall] at hfront hrefusing
      refine (endsAfter_ok hfront).mpr (.goes ?_ ((endsAfter_ok hrefusing).mp h))
      simp only [turn, Progress.front, if_neg (room_of_visitAll hroom hall), if_neg hdeep,
        hallowed]
      rfl

theorem endsAfter_taken (hroom : t.pages.length + batch.length < config.maxPages)
    (hdeep : ¬ config.maxDepth < depth) (hallowed : site.allowed url = true)
    (h : EndsAfter site config origin t (batch ++ [(url, depth)]) found) :
    EndsAfter site config origin (Progress.front (url, depth) t) batch found := by
  have hfront : visitAll site config origin (Progress.front (url, depth) t) batch =
      (visitAll site config origin t batch).map _ := visitAll_unseen (front_unseen _) t batch
  have hlast : visitAll site config origin t (batch ++ [(url, depth)]) =
      (visitAll site config origin t batch).bind _ := visitAll_snoc t batch (url, depth)
  cases hall : visitAll site config origin t batch with
  | error e =>
      rw [hall] at hfront hlast
      exact (endsAfter_error hfront).mpr ((endsAfter_error hlast).mp h)
  | ok after =>
      rw [hall] at hfront hlast
      apply (endsAfter_ok hfront).mpr
      have hturn : turn config.maxPages config.maxDepth site.allowed (visit site config origin)
          (Progress.front (url, depth) after) =
            match visit site config origin after (url, depth) with
            | .error _ => .raises
            | .ok next => .goes next := by
        simp only [turn, Progress.front, if_neg (room_of_visitAll hroom hall), if_neg hdeep,
          hallowed]
        rfl
      cases hvisit : visit site config origin after (url, depth) with
      | error e =>
          have herror : visitAll site config origin t (batch ++ [(url, depth)]) = .error e :=
            hlast.trans hvisit
          rw [hvisit] at hturn
          rw [(endsAfter_error herror).mp h]
          exact .raises hturn
      | ok next =>
          have hok : visitAll site config origin t (batch ++ [(url, depth)]) = .ok next :=
            hlast.trans hvisit
          rw [hvisit] at hturn
          exact .goes hturn ((endsAfter_ok hok).mp h)

end Turns

/-- Cutting a batch keeps the end of the search: what is taken from the front of
the frontier before the batch is visited might as well be taken after it. -/
theorem endsAfter_fillBatch {s : Progress} {found : Option Progress} :
    ∀ (frontier : List (String × Nat)) (batch : List (String × Nat)) (blocked : List String),
      let cut := fillBatch site config s.pages.length batch blocked frontier
      EndsAfter site config origin { s with blocked := cut.2.1, frontier := cut.2.2 } cut.1 found →
        EndsAfter site config origin { s with blocked := blocked, frontier := frontier } batch
          found := by
  intro frontier
  induction frontier with
  | nil => exact fun _ _ h => h
  | cons item rest ih =>
      rcases item with ⟨url, depth⟩
      intro batch blocked
      dsimp only
      unfold fillBatch
      by_cases hroom : (batch.length < config.workers &&
          s.pages.length + batch.length < config.maxPages) = true
      · have hcount : s.pages.length + batch.length < config.maxPages := by
          simp only [Bool.and_eq_true, decide_eq_true_eq] at hroom
          exact hroom.2
        let t : Progress := { s with blocked := blocked, frontier := rest }
        rw [if_pos hroom]
        by_cases hdeep : config.maxDepth < depth
        · rw [if_pos hdeep]
          intro h
          exact endsAfter_deep (t := t) hcount hdeep (ih batch blocked h)
        · rw [if_neg hdeep]
          cases hallowed : site.allowed url with
          | false =>
              intro h
              exact endsAfter_refused (t := t) hcount hdeep hallowed (ih batch (blocked ++ [url]) h)
          | true =>
              intro h
              exact endsAfter_taken (t := t) hcount hdeep hallowed
                (ih (batch ++ [(url, depth)]) blocked h)
      · rw [if_neg hroom]
        exact fun h => h

theorem fillBatch_ne_nil {count : Nat} :
    ∀ (frontier batch : List (String × Nat)) (blocked : List String), batch ≠ [] →
      (fillBatch site config count batch blocked frontier).1 ≠ [] := by
  intro frontier
  induction frontier with
  | nil => exact fun _ _ h => h
  | cons item rest ih =>
      rcases item with ⟨url, depth⟩
      intro batch blocked h
      unfold fillBatch
      split
      · split
        · exact ih batch blocked h
        · split
          · exact ih batch (blocked ++ [url]) h
          · exact ih (batch ++ [(url, depth)]) blocked (by simp)
      · exact h

/-- A batch that is cut empty has emptied the frontier. -/
theorem frontier_of_empty_batch (site : Site) (hworkers : 1 ≤ config.workers) {count : Nat}
    (hroom : count < config.maxPages) (frontier : List (String × Nat)) :
    ∀ blocked : List String, (fillBatch site config count [] blocked frontier).1 = [] →
      (fillBatch site config count [] blocked frontier).2.2 = [] := by
  induction frontier with
  | nil => exact fun _ _ => rfl
  | cons item rest ih =>
      rcases item with ⟨url, depth⟩
      intro blocked
      have hopen : (([] : List (String × Nat)).length < config.workers &&
          count + ([] : List (String × Nat)).length < config.maxPages) = true := by
        simp
        omega
      unfold fillBatch
      rw [if_pos hopen]
      split
      · exact ih blocked
      · split
        · exact ih (blocked ++ [url])
        · intro h
          exact absurd h (fillBatch_ne_nil rest _ blocked (by simp))

section Pool

variable {batch : List (String × Nat)}

theorem visitAll_of_mapM_error {e : Exn}
    (h : batch.mapM (fun item => site.fetch item.1) = .error e) (s : Progress) :
    ∃ e', visitAll site config origin s batch = .error e' := by
  induction batch generalizing s e with
  | nil => cases h
  | cons item rest ih =>
      unfold visitAll
      rw [List.mapM_cons] at h
      rw [List.foldlM_cons]
      unfold visit
      cases hfetch : site.fetch item.1 with
      | error e' => exact ⟨e', rfl⟩
      | ok result =>
          rw [hfetch] at h
          cases habsorb : absorb site config origin s item result with
          | error e' => exact ⟨e', by simp [bind, Except.bind, habsorb]⟩
          | ok after =>
              cases hrest : rest.mapM (fun item => site.fetch item.1) with
              | error e' =>
                  obtain ⟨e'', hlater⟩ := ih hrest after
                  refine ⟨e'', ?_⟩
                  simp only [bind, Except.bind, habsorb]
                  exact hlater
              | ok results =>
                  rw [hrest] at h
                  cases h

/-- Results that are folded in after the batch is through are folded in as if
each had come when its url was visited. -/
theorem visitAll_of_mapM_ok {results : List FetchResult}
    (h : batch.mapM (fun item => site.fetch item.1) = .ok results) (s : Progress) :
    (batch.zip results).foldlM (fun s item => absorb site config origin s item.1 item.2) s =
      visitAll site config origin s batch := by
  induction batch generalizing s results with
  | nil => rfl
  | cons item rest ih =>
      unfold visitAll
      rw [List.mapM_cons] at h
      rw [List.foldlM_cons]
      cases hfetch : site.fetch item.1 with
      | error e =>
          rw [hfetch] at h
          cases h
      | ok result =>
          rw [hfetch] at h
          cases hrest : rest.mapM (fun item => site.fetch item.1) with
          | error e =>
              rw [hrest] at h
              cases h
          | ok later =>
              rw [hrest] at h
              have hresults : results = result :: later := (Except.ok.inj h).symm
              have hvisit : visit site config origin s item =
                  absorb site config origin s item result := by
                unfold visit
                rw [hfetch]
                rfl
              rw [hresults, List.zip_cons_cons, List.foldlM_cons, hvisit]
              cases absorb site config origin s item result with
              | error e => rfl
              | ok after => exact ih hrest after

end Pool

/-- Rounds that the loop can still need. -/
def roundsLeft (config : CrawlConfig) (s : Progress) : Nat :=
  if s.frontier = [] then 1 else config.maxPages - s.pages.length + 2

/-- With workers, and rounds enough, the loop over the batches ends where the plain
search ends. -/
theorem searchBatches_ends (hworkers : 1 ≤ config.workers) (pool : Completion) :
    ∀ (fuel n : Nat) (s : Progress), roundsLeft config s ≤ fuel →
      ∃ found, searchBatches site config origin pool fuel n s = some found ∧
        Sequential site config origin s found.toOption := by
  intro fuel
  induction fuel with
  | zero =>
      intro n s hfuel
      unfold roundsLeft at hfuel
      split at hfuel <;> omega
  | succ fuel ih =>
      intro n s hfuel
      unfold searchBatches
      by_cases hover : (s.frontier = [] || config.maxPages ≤ s.pages.length) = true
      · rw [if_pos hover]
        refine ⟨.ok s, rfl, .ends ?_⟩
        simp only [Bool.or_eq_true, decide_eq_true_eq] at hover
        unfold turn
        rcases hover with hdrained | hfull
        · rw [hdrained]
        · cases s.frontier with
          | nil => rfl
          | cons item rest => exact if_pos hfull
      · rw [if_neg hover]
        obtain ⟨hfront, hroom⟩ : s.frontier ≠ [] ∧ s.pages.length < config.maxPages := by
          simpa using hover
        have hrounds : config.maxPages - s.pages.length + 2 ≤ fuel + 1 := by
          rwa [roundsLeft, if_neg hfront] at hfuel
        obtain ⟨batch, blocked, frontier, hcut⟩ : ∃ batch blocked frontier,
            fillBatch site config s.pages.length [] s.blocked s.frontier =
              (batch, blocked, frontier) := ⟨_, _, _, rfl⟩
        let t : Progress := { s with blocked := blocked, frontier := frontier }
        have hends : ∀ found, EndsAfter site config origin t batch found →
            Sequential site config origin s found := by
          intro found h
          apply endsAfter_fillBatch s.frontier [] s.blocked
          rw [hcut]
          exact h
        rw [hcut]
        dsimp only
        by_cases hbatch : batch = []
        · have hempty : frontier = [] := by
            have h := frontier_of_empty_batch site hworkers hroom s.frontier s.blocked
            rw [hcut] at h
            exact h hbatch
          rw [if_pos hbatch]
          obtain ⟨found, hfound, hlater⟩ := ih n t (by
            rw [roundsLeft, if_pos hempty]
            omega)
          refine ⟨found, hfound, hends _ ?_⟩
          rw [hbatch]
          exact hlater
        · rw [if_neg hbatch, poolMap_eq_mapM _ _ (pool.perm n batch.length)]
          cases hresults : batch.mapM (fun item => site.fetch item.1) with
          | error e =>
              obtain ⟨e', herror⟩ : ∃ e', visitAll site config origin t batch = .error e' :=
                visitAll_of_mapM_error hresults t
              exact ⟨.error e, rfl, hends _ ((endsAfter_error herror).mpr rfl)⟩
          | ok results =>
              dsimp only
              rw [visitAll_of_mapM_ok hresults t]
              cases hall : visitAll site config origin t batch with
              | error e => exact ⟨.error e, rfl, hends _ ((endsAfter_error hall).mpr rfl)⟩
              | ok after =>
                  have hpages := length_pages_visitAll hall
                  have hsome : 0 < batch.length := List.length_pos_iff.mpr hbatch
                  obtain ⟨found, hfound, hlater⟩ := ih (n + 1) after (by
                    have ht : t.pages.length = s.pages.length := rfl
                    unfold roundsLeft
                    split <;> omega)
                  exact ⟨found, hfound, hends _ ((endsAfter_ok hall).mpr hlater)⟩

end Batches

/-- The search of the crawl, from the start url to the last batch. -/
def searched (site : Site) (config : CrawlConfig) (fetches : Completion) (fuel : Nat) :
    Option (Except Exn Progress) :=
  match prepared site config with
  | .error e => some (.error e)
  | .ok (ctx, s) => searchBatches site config ctx.origin fetches fuel 0 s

/-- The same crawl with one worker. -/
def alone (config : CrawlConfig) : CrawlConfig := { config with workers := 1 }

/-- The plain search of the site ends so. -/
def FoundBySearch (site : Site) (config : CrawlConfig) (found : Option Progress) : Prop :=
  match prepared site config with
  | .error _ => found = none
  | .ok (ctx, s) => Sequential site config ctx.origin s found

section Crawls

variable {site : Site} {config : CrawlConfig} {fuel : Nat}

theorem searched_found (site : Site) (config : CrawlConfig) (hworkers : 1 ≤ config.workers)
    (fetches : Completion) (hfuel : config.maxPages + 2 ≤ fuel) :
    ∃ found, searched site config fetches fuel = some found ∧
      FoundBySearch site config found.toOption := by
  unfold searched FoundBySearch
  cases prepared site config with
  | error e => exact ⟨.error e, rfl, rfl⟩
  | ok start =>
      rcases start with ⟨ctx, s⟩
      apply searchBatches_ends hworkers fetches
      unfold roundsLeft
      split <;> omega

theorem foundBySearch_unique {found other : Option Progress}
    (h : FoundBySearch site config found) (h' : FoundBySearch site config other) :
    found = other := by
  unfold FoundBySearch at h h'
  cases hprepared : prepared site config with
  | error e =>
      rw [hprepared] at h h'
      exact h.trans h'.symm
  | ok start =>
      rw [hprepared] at h h'
      exact breadthFirst_unique h h'

theorem prepared_alone : prepared site (alone config) = prepared site config := by
  unfold prepared
  rfl

theorem foundBySearch_alone (found : Option Progress) :
    FoundBySearch site (alone config) found ↔ FoundBySearch site config found := by
  unfold FoundBySearch
  rw [prepared_alone]
  rfl

theorem concluded_alone (probes probes' : Completion) (ctx : SiteContext) (s : Progress) :
    concluded site config probes ctx s = concluded site (alone config) probes' ctx s := by
  have hchecks : ∀ after, checkExternalLinks site config probes after =
      checkExternalLinks site (alone config) probes' after := by
    intro after
    unfold checkExternalLinks
    congr 1
    funext targets
    rw [poolMap_eq_mapM _ _ (probes.perm 0 targets.length),
      poolMap_eq_mapM _ _ (probes'.perm 0 targets.length)]
  unfold concluded
  simp only [hchecks]
  rfl

/-- What the crawl makes of the search. -/
theorem crawl_of_searched {fetches : Completion} (probes : Completion)
    {found : Except Exn Progress} (h : searched site config fetches fuel = some found) :
    ∃ result, crawl site config fetches probes fuel = some result ∧
      result.toOption = found.toOption.bind fun s =>
        (prepared site config).toOption.bind fun start =>
          (concluded site config probes start.1 s).toOption := by
  unfold searched at h
  unfold crawl
  cases hprepared : prepared site config with
  | error e =>
      rw [hprepared] at h
      cases h
      exact ⟨.error e, rfl, rfl⟩
  | ok start =>
      rw [hprepared] at h
      dsimp only at h ⊢
      rw [h]
      refine ⟨_, rfl, ?_⟩
      cases found <;> rfl

end Crawls

/-- The tasks of a batch complete in the order they were given, or in the opposite
order. -/
def inOrder : Completion where
  order _ size := List.range size
  perm _ _ := List.Perm.refl _

def backwards : Completion where
  order _ size := (List.range size).reverse
  perm _ _ := List.reverse_perm _

/-- A site whose start page links to two pages, one of which is refused. -/
def shop : Site where
  rules := {
    lower := String.map Char.toLower
    casefold := String.map Char.toLower
    netlocFault := fun _ => none }
  robots := { robotsLoaded := true }
  fetch url := .ok {
    statusCode := if leads "https://shop.ir/" url then 200 else 404
    finalUrl := url
    redirectChain := []
    headers := []
    text := "<html></html>"
    byteSize := 13
    elapsedMs := 20
    contentType := "text/html" }
  checkStatus _ := .ok (200, none)
  allowed url := url ≠ "https://shop.ir/cart"
  parsePage page _ _ := .ok { page with
    links := ["https://shop.ir/cart", "https://shop.ir/a", "https://shop.ir/b"].map fun href =>
      { href := href, rawHref := href, anchor := "", isInternal := true } }

end SeoPlatform.Crawler.Parallelism
