import Mathlib.Algebra.BigOperators.Ring.List
import Mathlib.Data.Rat.Floor
import SeoPlatform.Foundation.Accounts
import SeoPlatform.Foundation.ExceptFlow
import SeoPlatform.Foundation.Rounding
import SeoPlatform.InternalLinks.Building

namespace SeoPlatform.InternalLinks.Authority

open SeoPlatform.Foundation.Accounts
open SeoPlatform.Foundation.ExceptFlow
open SeoPlatform.Foundation.Mapping
open SeoPlatform.Foundation.Rounding
open SeoPlatform.InternalLinks.Building
open SeoPlatform.Shared.Exceptions

/-- How much of a page's authority flows onward. -/
def damping : Rat := 85 / 100

def iterations : Nat := 40

def convergence : Rat := 1 / 1000000000

/-- The authority of each page. -/
abbrev Ranks := Dictionary String Rat

section Raising

def divide (x y : Rat) : Except Exn Rat :=
  if y = 0 then .error (.library "ZeroDivisionError" "division by zero") else .ok (x / y)

/-- What is missing from a dictionary raises. -/
def orKeyError {α : Type} (key : String) : Option α → Except Exn α
  | none => .error (.keyError key)
  | some a => .ok a

def rankOf (rank : Ranks) (url : String) : Except Exn Rat := orKeyError url (rank.get? url)

end Raising

/-- The pages that each page links to, once for every link. Only edges to crawled
pages count. -/
def outgoing (graph : Graph) : Dictionary String (List String) :=
  graph.edges.foldl (fun found edge =>
      if edge.target ∈ graph.urls then
        found.set edge.source ((found.get? edge.source).getD [] ++ [edge.target])
      else found)
    .empty

def targetsOf (graph : Graph) (url : String) : List String := ((outgoing graph).get? url).getD []

/-- A page hands its authority on in equal shares. What was not crawled has none. -/
def hand (rank next : Ranks) (entry : String × List String) : Except Exn Ranks :=
  match rank.get? entry.1 with
  | none => .ok next
  | some value => do
      let share ← divide (damping * value) entry.2.length
      orKeyError entry.1 (creditAll share next entry.2)

/-- One round: what everyone gets, and then what is handed on. -/
def pass (graph : Graph) (rank : Ranks) : Except Exn Ranks := do
  let leaked ← (graph.urls.filter fun url => targetsOf graph url = []).mapM (rankOf rank)
  let even ← divide (1 - damping) graph.urls.length
  let returned ← divide (damping * leaked.sum) graph.urls.length
  (outgoing graph).entries.foldlM (hand rank)
    (.fromKeys graph.urls graph.nodup_urls (even + returned))

/-- How far a round has moved the ranks. -/
def moved (graph : Graph) (rank next : Ranks) : Except Exn Rat := do
  let moves ← graph.urls.mapM fun url => do
    let after ← rankOf next url
    let before ← rankOf rank url
    .ok |after - before|
  .ok moves.sum

/-- The loop, which stops early where little moves. -/
def settle (graph : Graph) : Nat → Ranks → Except Exn Ranks
  | 0, rank => .ok rank
  | rounds + 1, rank => do
      let next ← pass graph rank
      if (← moved graph rank next) < convergence then .ok next
      else settle graph rounds next

def start (graph : Graph) : Except Exn Ranks := do
  let each ← divide 1 graph.urls.length
  .ok (.fromKeys graph.urls graph.nodup_urls each)

/-- The score of a page, of which the best has 100. -/
def scoreOf (top value : Rat) : Except Exn Rat := do
  .ok (roundTenth ((← divide value top) * 100))

def topOf (rank : Ranks) : Except Exn Rat :=
  match rank.values.max? with
  | none => .error (.valueError "max() iterable argument is empty")
  | some top => .ok (if top = 0 then 1 else top)

def scoresOf (top : Rat) (rank : Ranks) : Except Exn Ranks := do
  let scored ← rank.entries.mapM fun entry => do
    let score ← scoreOf top entry.2
    .ok (entry.1, score)
  .ok (.ofPairs scored)

def authority (graph : Graph) : Except Exn Ranks :=
  if graph.urls = [] then .ok .empty
  else do
    let rank ← settle graph iterations (← start graph)
    let top ← topOf rank
    scoresOf top rank

/-- The ranks after so many rounds. -/
def passes (graph : Graph) : Nat → Except Exn Ranks
  | 0 => start graph
  | rounds + 1 => do pass graph (← passes graph rounds)

/-- Authority that is spread over the crawled pages, of which each has at least its
even part of what does not flow. -/
structure Spread (graph : Graph) (rank : Ranks) : Prop where
  keys : rank.keys = graph.urls
  total : total rank = 1
  least : ∀ url ∈ graph.urls, (1 - damping) / graph.urls.length ≤ balance rank url

section Outgoing

/-- Whoever hands anything on hands it to crawled pages, and to at least one. -/
structure Targets (graph : Graph) (found : Dictionary String (List String)) : Prop where
  some : ∀ entry ∈ found.entries, entry.2 ≠ []
  crawled : ∀ entry ∈ found.entries, ∀ target ∈ entry.2, target ∈ graph.urls

theorem targets_outgoing (graph : Graph) : Targets graph (outgoing graph) := by
  have hfold : ∀ (edges : List Edge) (found : Dictionary String (List String)),
      Targets graph found →
      Targets graph (edges.foldl (fun found edge =>
        if edge.target ∈ graph.urls then
          found.set edge.source ((found.get? edge.source).getD [] ++ [edge.target])
        else found) found) := by
    intro edges
    induction edges with
    | nil => exact fun found h => h
    | cons edge rest ih =>
        intro found h
        rw [List.foldl_cons]
        apply ih
        split
        · rename_i htarget
          constructor
          · intro entry hentry
            rcases Dictionary.mem_entries_set hentry with rfl | hold
            · exact List.append_ne_nil_of_right_ne_nil _ (List.cons_ne_nil _ _)
            · exact h.some entry hold
          · intro entry hentry
            rcases Dictionary.mem_entries_set hentry with rfl | hold
            · intro target hmem
              rcases List.mem_append.mp hmem with hmem | hmem
              · cases hheld : found.get? edge.source with
                | none =>
                    rw [hheld] at hmem
                    cases hmem
                | some held =>
                    rw [hheld] at hmem
                    exact h.crawled _ (Dictionary.get?_eq_some_iff.mp hheld) target hmem
              · rw [List.mem_singleton] at hmem
                exact hmem ▸ htarget
            · exact h.crawled entry hold
        · exact h
  apply hfold
  exact ⟨fun _ h => absurd h List.not_mem_nil, fun _ h => absurd h List.not_mem_nil⟩

theorem targetsOf_ne_nil_iff {graph : Graph} {url : String} :
    targetsOf graph url ≠ [] ↔ url ∈ (outgoing graph).keys := by
  rw [Dictionary.mem_keys_iff]
  unfold targetsOf
  cases hfound : (outgoing graph).get? url with
  | none => simp
  | some targets =>
      have hne := (targets_outgoing graph).some _ (Dictionary.get?_eq_some_iff.mp hfound)
      simpa using hne

end Outgoing

section Rounds

variable {graph : Graph} {rank : Ranks}

theorem rankOf_ok {url : String} (h : url ∈ rank.keys) :
    rankOf rank url = .ok (balance rank url) := by
  obtain ⟨value, hvalue⟩ := Dictionary.mem_keys_iff.mp h
  unfold rankOf balance
  rw [hvalue]
  rfl

theorem divide_ok {x y : Rat} (h : y ≠ 0) : divide x y = .ok (x / y) := if_neg h

/-- What a page hands on is what flows of what it has. -/
theorem hand_spec {next : Ranks} {entry : String × List String} (hsome : entry.2 ≠ [])
    (htargets : ∀ target ∈ entry.2, target ∈ next.keys)
    (hpositive : ∀ url, 0 ≤ balance rank url) :
    ∃ after, hand rank next entry = .ok after ∧ after.keys = next.keys ∧
      (∀ url, balance next url ≤ balance after url) ∧
      total after = total next +
        if entry.1 ∈ rank.keys then damping * balance rank entry.1 else 0 := by
  unfold hand
  cases hvalue : rank.get? entry.1 with
  | none =>
      have hnot : entry.1 ∉ rank.keys := by
        rw [Dictionary.mem_keys_iff, hvalue]
        rintro ⟨value, h⟩
        cases h
      exact ⟨next, rfl, rfl, fun url => le_rfl, by rw [if_neg hnot, add_zero]⟩
  | some value =>
      have hbalance : balance rank entry.1 = value := by
        unfold balance
        rw [hvalue]
        rfl
      have hlength : (entry.2.length : Rat) ≠ 0 := by
        rw [Nat.cast_ne_zero, ne_eq, List.length_eq_zero_iff]
        exact hsome
      obtain ⟨after, hafter, hkeys, hbalances, htotal⟩ :=
        creditAll_spec htargets (damping * value / entry.2.length)
      refine ⟨after, ?_, hkeys, ?_, ?_⟩
      · dsimp only
        rw [divide_ok hlength]
        simp only [bind, Except.bind, hafter]
        rfl
      · intro url
        rw [hbalances]
        have hshare : 0 ≤ damping * value / entry.2.length := by
          have hvaluePos : 0 ≤ value := hbalance ▸ hpositive entry.1
          unfold damping
          positivity
        exact le_add_of_nonneg_right (nsmul_nonneg hshare _)
      · rw [htotal, if_pos (Dictionary.mem_keys_iff.mpr ⟨value, hvalue⟩), hbalance, nsmul_eq_mul,
          mul_div_cancel₀ _ hlength]

/-- And so for all of them, one after the other. -/
theorem foldlM_hand_spec (hpositive : ∀ url, 0 ≤ balance rank url)
    {entries : List (String × List String)} {next : Ranks} (hsome : ∀ entry ∈ entries, entry.2 ≠ [])
    (htargets : ∀ entry ∈ entries, ∀ target ∈ entry.2, target ∈ next.keys) :
    ∃ after, entries.foldlM (hand rank) next = .ok after ∧ after.keys = next.keys ∧
      (∀ url, balance next url ≤ balance after url) ∧
      total after = total next +
        ((entries.map Prod.fst).map fun source =>
          if source ∈ rank.keys then damping * balance rank source else 0).sum := by
  induction entries generalizing next with
  | nil => exact ⟨next, rfl, rfl, fun _ => le_rfl, by simp⟩
  | cons entry rest ih =>
      rw [List.forall_mem_cons] at hsome htargets
      obtain ⟨middle, hmiddle, hkeys, hbalances, htotal⟩ :=
        hand_spec hsome.1 htargets.1 hpositive
      obtain ⟨after, hafter, hkeys', hbalances', htotal'⟩ :=
        @ih middle hsome.2 (by rw [hkeys]; exact htargets.2)
      refine ⟨after, ?_, hkeys'.trans hkeys, fun url => (hbalances url).trans (hbalances' url), ?_⟩
      · rw [List.foldlM_cons, hmiddle]
        exact hafter
      · rw [htotal', htotal, List.map_cons, List.map_cons, List.sum_cons, add_assoc]

/-- What is handed on and what is not are all there is. -/
theorem sum_handed (hkeys : rank.keys = graph.urls) :
    damping * (((graph.urls.filter fun url => targetsOf graph url = []).map (balance rank)).sum) +
        (((outgoing graph).keys).map fun source =>
          if source ∈ rank.keys then damping * balance rank source else 0).sum =
      damping * total rank := by
  have hperm : ((outgoing graph).keys.filter fun source => source ∈ rank.keys).Perm
      (graph.urls.filter fun url => ¬ targetsOf graph url = []) := by
    apply (List.perm_ext_iff_of_nodup ((outgoing graph).nodup_keys.filter _)
      (graph.nodup_urls.filter _)).mpr
    intro url
    simp only [List.mem_filter, decide_eq_true_eq, hkeys]
    rw [← ne_eq, targetsOf_ne_nil_iff]
    exact and_comm
  have hhanded : (((outgoing graph).keys).map fun source =>
      if source ∈ rank.keys then damping * balance rank source else 0).sum =
        damping * ((graph.urls.filter fun url => ¬ targetsOf graph url = []).map
          (balance rank)).sum := by
    rw [List.sum_map_ite, List.sum_map_mul_left, (hperm.map _).sum_eq]
    simp
  rw [hhanded, ← mul_add, total_eq_balances, hkeys, List.sum_map_filter_add_sum_map_filter_not]

theorem damping_bounds : 0 < damping ∧ damping < 1 := by
  unfold damping
  norm_num

/-- A round hands on what there is and keeps it whole. -/
theorem pass_spec (hurls : graph.urls ≠ []) (hrank : Spread graph rank) :
    ∃ next, pass graph rank = .ok next ∧ Spread graph next := by
  have hcount : (0 : Rat) < graph.urls.length := by
    rw [Nat.cast_pos, List.length_pos_iff]
    exact hurls
  have hpositive : ∀ url, 0 ≤ balance rank url := by
    intro url
    by_cases hurl : url ∈ graph.urls
    · refine le_trans ?_ (hrank.least url hurl)
      have hflows := damping_bounds.2
      exact div_nonneg (by linarith) hcount.le
    · unfold balance
      rw [← hrank.keys, Dictionary.mem_keys_iff, not_exists] at hurl
      rw [Option.eq_none_iff_forall_ne_some.mpr hurl]
      exact le_rfl
  have hleaked : (graph.urls.filter fun url => targetsOf graph url = []).mapM (rankOf rank) =
      .ok ((graph.urls.filter fun url => targetsOf graph url = []).map (balance rank)) := by
    apply mapM_ok
    intro url hurl
    exact rankOf_ok (hrank.keys ▸ (List.mem_filter.mp hurl).1)
  obtain ⟨leaked, hleakedSum⟩ : ∃ leaked, leaked =
    ((graph.urls.filter fun url => targetsOf graph url = []).map (balance rank)).sum := ⟨_, rfl⟩
  have hleakedPos : 0 ≤ leaked := by
    rw [hleakedSum]
    apply List.sum_nonneg
    intro x hx
    obtain ⟨url, -, rfl⟩ := List.mem_map.mp hx
    exact hpositive url
  have htargets := targets_outgoing graph
  obtain ⟨next, hnext, hkeys, hbalances, htotal⟩ :=
    @foldlM_hand_spec rank hpositive (outgoing graph).entries
      (.fromKeys graph.urls graph.nodup_urls
        ((1 - damping) / graph.urls.length + damping * leaked / graph.urls.length))
      htargets.some (by
        rw [Dictionary.keys_fromKeys]
        exact htargets.crawled)
  rw [Dictionary.keys_fromKeys] at hkeys
  refine ⟨next, ?_, hkeys, ?_, ?_⟩
  · unfold pass
    rw [hleaked]
    simp only [bind, Except.bind, divide_ok hcount.ne', ← hleakedSum]
    exact hnext
  · have hsum := @sum_handed graph rank hrank.keys
    rw [hrank.total, ← hleakedSum] at hsum
    have hhanded : (((outgoing graph).entries.map Prod.fst).map fun source =>
        if source ∈ rank.keys then damping * balance rank source else 0).sum =
          damping * 1 - damping * leaked := eq_sub_of_add_eq' hsum
    rw [htotal, total_fromKeys, nsmul_eq_mul, hhanded, mul_add, mul_div_cancel₀ _ hcount.ne',
      mul_div_cancel₀ _ hcount.ne']
    ring
  · intro url hurl
    refine le_trans ?_ (hbalances url)
    rw [balance_fromKeys _ hurl]
    have hreturned : 0 ≤ damping * leaked / graph.urls.length :=
      div_nonneg (mul_nonneg damping_bounds.1.le hleakedPos) hcount.le
    linarith

end Rounds

section Runs

variable {graph : Graph}

theorem start_spec (hurls : graph.urls ≠ []) :
    ∃ rank, start graph = .ok rank ∧ Spread graph rank := by
  have hcount : (0 : Rat) < graph.urls.length := by
    rw [Nat.cast_pos, List.length_pos_iff]
    exact hurls
  refine ⟨.fromKeys graph.urls graph.nodup_urls (1 / graph.urls.length), ?_, ?_, ?_, ?_⟩
  · unfold start
    rw [divide_ok hcount.ne']
    rfl
  · exact Dictionary.keys_fromKeys _ _ _
  · rw [total_fromKeys, nsmul_eq_mul, mul_div_cancel₀ _ hcount.ne']
  · intro url hurl
    rw [balance_fromKeys _ hurl]
    have hflows := damping_bounds.1
    exact (div_le_div_iff_of_pos_right hcount).mpr (by linarith)

/-- By induction on the rounds. -/
theorem passes_spec (hurls : graph.urls ≠ []) (rounds : Nat) :
    ∃ rank, passes graph rounds = .ok rank ∧ Spread graph rank := by
  induction rounds with
  | zero => exact start_spec hurls
  | succ rounds ih =>
      obtain ⟨rank, hrank, hspread⟩ := ih
      obtain ⟨next, hnext, hspread'⟩ := pass_spec hurls hspread
      refine ⟨next, ?_, hspread'⟩
      unfold passes
      rw [hrank]
      exact hnext

theorem moved_ok {rank next : Ranks} (hrank : rank.keys = graph.urls)
    (hnext : next.keys = graph.urls) : ∃ distance, moved graph rank next = .ok distance := by
  unfold moved
  have hmoves : (graph.urls.mapM fun url => do
      let after ← rankOf next url
      let before ← rankOf rank url
      (.ok |after - before| : Except Exn Rat)) =
        .ok (graph.urls.map fun url => |balance next url - balance rank url|) := by
    apply mapM_ok
    intro url hurl
    rw [rankOf_ok (hnext ▸ hurl), rankOf_ok (hrank ▸ hurl)]
    rfl
  rw [hmoves]
  exact ⟨_, rfl⟩

/-- The loop ends with the ranks of one of its rounds. -/
theorem settle_spec (hurls : graph.urls ≠ []) {rank : Ranks} {done : Nat}
    (hdone : passes graph done = .ok rank) (hspread : Spread graph rank) (rounds : Nat) :
    ∃ more ≤ rounds, settle graph rounds rank = passes graph (done + more) := by
  induction rounds generalizing rank done with
  | zero => exact ⟨0, le_rfl, hdone.symm⟩
  | succ rounds ih =>
      obtain ⟨next, hnext, hspread'⟩ := pass_spec hurls hspread
      have hdone' : passes graph (done + 1) = .ok next := by
        unfold passes
        rw [hdone]
        exact hnext
      obtain ⟨distance, hdistance⟩ := moved_ok hspread.keys hspread'.keys
      unfold settle
      simp only [bind, Except.bind, hnext, hdistance]
      split
      · exact ⟨1, Nat.succ_le_succ (Nat.zero_le _), hdone'.symm⟩
      · obtain ⟨more, hmore, hsettled⟩ := ih hdone' hspread'
        refine ⟨more + 1, Nat.succ_le_succ hmore, ?_⟩
        rw [hsettled, Nat.add_assoc, Nat.add_comm 1]

end Runs

section Scores

variable {graph : Graph} {rank : Ranks}

theorem mem_values_iff {value : Rat} :
    value ∈ rank.values ↔ ∃ url ∈ rank.keys, balance rank url = value := by
  rw [values_eq_balances, List.mem_map]

theorem positive_of_spread (hspread : Spread graph rank) {value : Rat} (h : value ∈ rank.values) :
    0 < value := by
  obtain ⟨url, hurl, rfl⟩ := mem_values_iff.mp h
  rw [hspread.keys] at hurl
  have hcount : (0 : Rat) < graph.urls.length := by
    rw [Nat.cast_pos]
    exact List.length_pos_of_mem hurl
  have hflows := damping_bounds.2
  exact lt_of_lt_of_le (div_pos (by linarith) hcount) (hspread.least url hurl)

/-- The greatest rank is positive, and one of the ranks. -/
theorem topOf_spec (hurls : graph.urls ≠ []) (hspread : Spread graph rank) :
    ∃ top, topOf rank = .ok top ∧ 0 < top ∧ top ∈ rank.values ∧
      ∀ value ∈ rank.values, value ≤ top := by
  unfold topOf
  cases htop : rank.values.max? with
  | none =>
      rw [List.max?_eq_none_iff, values_eq_balances, List.map_eq_nil_iff, hspread.keys] at htop
      exact absurd htop hurls
  | some top =>
      obtain ⟨hmem, hmost⟩ := List.max?_eq_some_iff.mp htop
      have hpositive := positive_of_spread hspread hmem
      exact ⟨top, congrArg Except.ok (if_neg hpositive.ne'), hpositive, hmem, hmost⟩

theorem scoreOf_ok {top : Rat} (htop : 0 < top) (value : Rat) :
    scoreOf top value = .ok (roundTenth (value / top * 100)) := by
  unfold scoreOf
  rw [divide_ok htop.ne']
  rfl

theorem scoresOf_ok {top : Rat} (htop : 0 < top) (rank : Ranks) :
    scoresOf top rank = .ok (rank.mapValues fun _ value => roundTenth (value / top * 100)) := by
  have hscored : (rank.entries.mapM fun entry => do
      let score ← scoreOf top entry.2
      (.ok (entry.1, score) : Except Exn (String × Rat))) =
        .ok (rank.mapValues fun _ value => roundTenth (value / top * 100)).entries := by
    apply mapM_ok
    intro entry _
    rw [scoreOf_ok htop]
    rfl
  unfold scoresOf
  rw [hscored]
  exact congrArg Except.ok (Dictionary.ofPairs_entries _)

theorem score_bounds {top value : Rat} (htop : 0 < top) (hvalue : 0 < value)
    (hmost : value ≤ top) :
    0 ≤ roundTenth (value / top * 100) ∧ roundTenth (value / top * 100) ≤ 100 := by
  have hpart : value / top ≤ 1 := (div_le_one htop).mpr hmost
  have hpositive : 0 < value / top := div_pos hvalue htop
  refine ⟨roundTenth_nonneg (by linarith), ?_⟩
  exact_mod_cast roundTenth_le (n := 100) (show value / top * 100 ≤ ((100 : Int) : Rat) by
    push_cast
    linarith)

theorem score_top {top : Rat} (htop : 0 < top) : roundTenth (top / top * 100) = 100 := by
  rw [div_self htop.ne']
  decide +kernel

/-- At every round the authority of a site is spread over its pages, and its best page
scores a hundred. -/
theorem authority_spread (graph : Graph) (hurls : graph.urls ≠ []) :
    (∀ rounds, ∃ rank, passes graph rounds = .ok rank ∧ Spread graph rank) ∧
    (∃ rounds ≤ iterations, ∃ first, start graph = .ok first ∧
      settle graph iterations first = passes graph rounds) ∧
    ∃ scores, authority graph = .ok scores ∧ scores.keys = graph.urls ∧
      (∀ score ∈ scores.values, 0 ≤ score ∧ score ≤ 100) ∧ 100 ∈ scores.values := by
  obtain ⟨first, hfirst, hspread⟩ := start_spec hurls
  obtain ⟨rounds, hrounds, hsettled⟩ := settle_spec hurls (show passes graph 0 = _ from hfirst)
    hspread iterations
  rw [Nat.zero_add] at hsettled
  refine ⟨passes_spec hurls, ⟨rounds, hrounds, first, hfirst, hsettled⟩, ?_⟩
  obtain ⟨rank, hrank, hspread'⟩ := passes_spec hurls rounds
  obtain ⟨top, htop, hpositive, hmem, hmost⟩ := topOf_spec hurls hspread'
  have hvalues := rank.values_mapValues fun value => roundTenth (value / top * 100)
  refine ⟨rank.mapValues fun _ value => roundTenth (value / top * 100), ?_, ?_, ?_, ?_⟩
  · unfold authority
    rw [if_neg hurls, hfirst]
    simp only [bind, Except.bind, hsettled, hrank, htop]
    exact scoresOf_ok hpositive rank
  · rw [Dictionary.keys_mapValues, hspread'.keys]
  · rw [hvalues]
    intro score hscore
    obtain ⟨value, hvalue, rfl⟩ := List.mem_map.mp hscore
    exact score_bounds hpositive (positive_of_spread hspread' hvalue) (hmost value hvalue)
  · rw [hvalues]
    exact List.mem_map.mpr ⟨top, hmem, score_top hpositive⟩

def pageAt (url : String) : Page where
  url := url
  title := .null
  status := 200
  indexable := true
  depth := 1
  words := 300

/-- A page that links to another twice and to one that was not crawled, and a page
that links to none. -/
def shop : Graph where
  pages := .ofPairs [("/", pageAt "/"), ("/a", pageAt "/a"), ("/b", pageAt "/b")]
  edges := [⟨"/", "/a", "", false⟩, ⟨"/", "/a", "", false⟩, ⟨"/", "/b", "", false⟩,
    ⟨"/", "/old", "", false⟩, ⟨"/old", "/b", "", false⟩, ⟨"/a", "/", "", true⟩]

theorem authority_spread_shop :
    (∀ rounds, ∃ rank, passes shop rounds = .ok rank ∧ Spread shop rank) ∧
    (∃ rounds ≤ iterations, ∃ first, start shop = .ok first ∧
      settle shop iterations first = passes shop rounds) ∧
    ∃ scores, authority shop = .ok scores ∧ scores.keys = shop.urls ∧
      (∀ score ∈ scores.values, 0 ≤ score ∧ score ≤ 100) ∧ 100 ∈ scores.values :=
  authority_spread shop (by decide)

end Scores

end SeoPlatform.InternalLinks.Authority
