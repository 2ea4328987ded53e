import Mathlib.Data.List.Sort
import SeoPlatform.Foundation.Mapping
import SeoPlatform.Foundation.TransitionSystem

namespace SeoPlatform.Engine.DashboardJobs

open SeoPlatform.Foundation.Mapping
open SeoPlatform.Foundation.TransitionSystem

section Store

/-- A job of the dashboard. `ρ` is what its work returns. -/
structure Job (ρ : Type) where
  id : String
  kind : String
  label : String
  status : String := "queued"
  message : String := "در صف اجرا"
  done : Int := 0
  total : Int := 0
  result : Option ρ := none
  error : Option String := none
  createdAt : String

/-- A report file: when it was written, and what a store reads of it. -/
structure Report (ρ : Type) where
  mtime : Nat
  id : String
  kind : String
  label : String
  done : Int
  total : Int
  createdAt : String
  result : ρ

variable {ρ : Type}

def Job.report (job : Job ρ) (mtime : Nat) (result : ρ) : Report ρ where
  mtime := mtime
  id := job.id
  kind := job.kind
  label := job.label
  done := job.done
  total := job.total
  createdAt := job.createdAt
  result := result

/-- The job of a report that was read from disk. -/
def Report.job (report : Report ρ) : Job ρ where
  id := report.id
  kind := report.kind
  label := report.label
  status := "done"
  message := "تمام شد"
  done := report.done
  total := report.total
  result := some report.result
  createdAt := report.createdAt

inductive Thread where
  | created
  | running
  | finished
  | written
  deriving DecidableEq

/-- The store of one process and its directory. A job is an object that its thread holds
also where the store has forgotten it, so `jobs` are the keys of the map. -/
structure JobStore (ρ : Type) where
  objects : Dictionary String (Job ρ)
  jobs : List String
  order : List String
  threads : Dictionary String Thread
  files : Dictionary String (Report ρ)
  temps : Dictionary String (Report ρ)

def JobStore.initial : JobStore ρ where
  objects := .empty
  jobs := []
  order := []
  threads := .empty
  files := .empty
  temps := .empty

/-- `_jobs[job.id] = job`, and its id behind the others. -/
def JobStore.add (store : JobStore ρ) (job : Job ρ) : JobStore ρ :=
  { store with
    objects := store.objects.set job.id job
    jobs := if job.id ∈ store.jobs then store.jobs else store.jobs ++ [job.id]
    order := store.order ++ [job.id] }

/-- Take a job out of the map, and its file from the directory, if it can be removed. -/
def JobStore.forget (removed : String → Bool) (store : JobStore ρ) (jobId : String) :
    JobStore ρ :=
  { store with
    jobs := store.jobs.filter (· ≠ jobId)
    files := if removed jobId then store.files.erase jobId else store.files }

/-- Of an order that is too long the first goes. -/
def evict (maxJobs : Nat) (removed : String → Bool) : List String → JobStore ρ → JobStore ρ
  | [], store => { store with order := [] }
  | oldest :: rest, store =>
      if maxJobs < (oldest :: rest).length then
        evict maxJobs removed rest (store.forget removed oldest)
      else { store with order := oldest :: rest }

def JobStore.create (maxJobs : Nat) (removed : String → Bool) (store : JobStore ρ)
    (job : Job ρ) : JobStore ρ :=
  let added := { store.add job with threads := store.threads.set job.id .created }
  evict maxJobs removed added.order added

def JobStore.change (store : JobStore ρ) (jobId : String) (f : Job ρ → Job ρ) : JobStore ρ :=
  match store.objects.get? jobId with
  | some job => { store with objects := store.objects.set jobId (f job) }
  | none => store

def JobStore.at (store : JobStore ρ) (jobId : String) (thread : Thread) : JobStore ρ :=
  { store with threads := store.threads.set jobId thread }

def JobStore.finish (store : JobStore ρ) (jobId : String) : JobStore ρ :=
  { store.change jobId fun job => { job with status := "done", message := "تمام شد" } with
    threads := store.threads.erase jobId }

def JobStore.fail (store : JobStore ρ) (jobId error : String) : JobStore ρ :=
  { store.change jobId fun job =>
      { job with status := "error", error := some error, message := "با خطا متوقف شد" } with
    threads := store.threads.erase jobId }

/-- How the writing of a temporary file ends: `refused` is an `OSError`. -/
inductive Writing where
  | done (mtime : Nat)
  | refused
  | raised (error : String)

/-- The first half of `_persist`, outside the lock. -/
def JobStore.writeTemp (store : JobStore ρ) (jobId : String) (writing : Writing) : JobStore ρ :=
  match (store.objects.get? jobId).bind fun job => job.result.map (Prod.mk job) with
  | none => store.finish jobId
  | some (job, result) =>
      match writing with
      | .done mtime =>
          { store with temps := store.temps.set jobId (job.report mtime result) }.at jobId .written
      | .refused => store.finish jobId
      | .raised error => store.fail jobId error

/-- The second half of `_persist`, under the lock. A rename may be refused. -/
def JobStore.rename (store : JobStore ρ) (jobId : String) (renamed : Bool) : JobStore ρ :=
  let cleared := { store with temps := store.temps.erase jobId }
  if jobId ∉ store.jobs then cleared
  else
    match renamed, store.temps.get? jobId with
    | true, some report => { cleared with files := store.files.set jobId report }
    | _, _ => cleared

/-- The report files in the order in which the directory lists them. -/
def JobStore.listed (store : JobStore ρ) (names : List String) : List (String × Report ρ) :=
  names.filterMap fun name => (store.files.get? name).map (Prod.mk name)

/-- `files[-max_jobs:]`. -/
def lastOf {α : Type} (n : Nat) (items : List α) : List α :=
  if n = 0 then items else items.drop (items.length - n)

/-- A new process on the directory. It reads the newest reports, without those that
cannot be read. -/
def JobStore.restart (maxJobs : Nat) (names : List String) (readable : String → Bool)
    (store : JobStore ρ) : JobStore ρ :=
  let sorted := (store.listed names).insertionSort fun a b => a.2.mtime ≤ b.2.mtime
  let found := (lastOf maxJobs sorted).filter fun file => readable file.1
  (found.map fun file => file.2.job).foldl JobStore.add
    { store with objects := .empty, jobs := [], order := [], threads := .empty }

end Store

section Steps

variable {ρ : Type}

/-- What happens. The work of a job may return or raise; `removed` and `readable` are the
files that a removal and a reading succeed on. -/
inductive Label (ρ : Type) where
  | create (id kind label createdAt : String) (removed : String → Bool)
  | run (jobId : String)
  | progress (jobId message : String) (done total : Int)
  | work (jobId : String) (outcome : Except String ρ)
  | writeTemp (jobId : String) (writing : Writing)
  | rename (jobId : String) (renamed : Bool)
  | restart (names : List String) (readable : String → Bool)

/-- A thread goes through its stages in their order, and a directory lists its files in
any order. -/
def step (maxJobs : Nat) (store : JobStore ρ) : Label ρ → Option (JobStore ρ)
  | .create id kind label createdAt removed =>
      some (store.create maxJobs removed
        { id := id, kind := kind, label := label, createdAt := createdAt })
  | .run jobId =>
      if store.threads.get? jobId = some .created then
        some ((store.change jobId fun job =>
          { job with status := "running", message := "شروع شد" }).at jobId .running)
      else none
  | .progress jobId message done total =>
      if store.threads.get? jobId = some .running then
        some (store.change jobId fun job =>
          { job with message := message, done := done, total := total })
      else none
  | .work jobId outcome =>
      if store.threads.get? jobId = some .running then
        match outcome with
        | .ok result =>
            some ((store.change jobId fun job => { job with result := some result }).at jobId
              .finished)
        | .error e => some (store.fail jobId e)
      else none
  | .writeTemp jobId writing =>
      if store.threads.get? jobId = some .finished then some (store.writeTemp jobId writing)
      else none
  | .rename jobId renamed =>
      if store.threads.get? jobId = some .written then
        some ((store.rename jobId renamed).finish jobId)
      else none
  | .restart names readable =>
      if names.isPerm store.files.keys then some (store.restart maxJobs names readable) else none

/-- The order and the map hold the same jobs once each, as many as there may be, and a
report file is that of a job in the map. -/
structure InStep (maxJobs : Nat) (store : JobStore ρ) : Prop where
  same : ∀ jobId, jobId ∈ store.order ↔ jobId ∈ store.jobs
  nodup_order : store.order.Nodup
  nodup_jobs : store.jobs.Nodup
  few : store.order.length ≤ maxJobs
  filed : ∀ jobId ∈ store.files.keys, jobId ∈ store.jobs

/-- No removal and no reading of a report file fails. -/
def Label.Served : Label ρ → Prop
  | .create _ _ _ _ removed => ∀ jobId, removed jobId = true
  | .restart _ readable => ∀ jobId, readable jobId = true
  | _ => True

def Label.created : Label ρ → Option String
  | .create id _ _ _ _ => some id
  | _ => none

def createdIds (past : List (JobStore ρ × Label ρ)) : List String :=
  past.filterMap fun moment => moment.2.created

end Steps

section Labels

variable {ν : Type} {idOf : ν → String} {d : Dictionary String ν}

/-- Everything is kept under its own id. -/
def Keyed (idOf : ν → String) (d : Dictionary String ν) : Prop :=
  ∀ entry ∈ d.entries, idOf entry.2 = entry.1

theorem keyed_empty : Keyed idOf .empty := List.forall_mem_nil _

theorem Keyed.set (h : Keyed idOf d) {key : String} {value : ν} (hvalue : idOf value = key) :
    Keyed idOf (d.set key value) := by
  intro entry hentry
  rcases Dictionary.mem_entries_set hentry with rfl | hold
  · exact hvalue
  · exact h entry hold

theorem Keyed.erase (h : Keyed idOf d) (key : String) : Keyed idOf (d.erase key) :=
  fun entry hentry => h entry (Dictionary.mem_entries_erase.mp hentry).1

theorem Keyed.get (h : Keyed idOf d) {key : String} {value : ν} (hget : d.get? key = some value) :
    idOf value = key :=
  h (key, value) (Dictionary.get?_eq_some_iff.mp hget)

end Labels

section Evicting

variable {ρ : Type} {maxJobs : Nat} {removed : String → Bool}

theorem filter_ne_cons {jobId : String} {rest : List String} (h : (jobId :: rest).Nodup) :
    (jobId :: rest).filter (· ≠ jobId) = rest := by
  rw [List.filter_cons_of_neg (by simp), List.filter_eq_self]
  intro other hother
  rw [decide_eq_true_eq]
  rintro rfl
  exact (List.nodup_cons.mp h).1 hother

/-- What eviction leaves: the last of the order, and the files of no other job. -/
structure Evicted (gone kept : List String) (store after : JobStore ρ) : Prop where
  order : after.order = kept
  jobs : after.jobs = kept
  files : ∀ entry, entry ∈ after.files.entries ↔
    entry ∈ store.files.entries ∧ entry.1 ∉ gone
  objects : after.objects = store.objects
  temps : after.temps = store.temps

theorem evicted_evict (hremoved : ∀ jobId, removed jobId = true) {order : List String}
    (hnodup : order.Nodup) {store : JobStore ρ} (hjobs : store.jobs = order) :
    Evicted (order.take (order.length - maxJobs)) (order.drop (order.length - maxJobs)) store
      (evict maxJobs removed order store) := by
  induction order generalizing store with
  | nil =>
      rw [List.take_nil, List.drop_nil]
      exact ⟨rfl, hjobs, fun entry => (and_iff_left List.not_mem_nil).symm, rfl, rfl⟩
  | cons oldest rest ih =>
      unfold evict
      by_cases hlong : maxJobs < (oldest :: rest).length
      · have hlength : (oldest :: rest).length - maxJobs = rest.length - maxJobs + 1 := by
          rw [List.length_cons] at hlong ⊢
          omega
        have hforgot : (store.forget removed oldest).jobs = rest := by
          unfold JobStore.forget
          rw [hjobs]
          exact filter_ne_cons hnodup
        have hrest := ih (List.nodup_cons.mp hnodup).2 hforgot
        rw [if_pos hlong, hlength, List.take_succ_cons, List.drop_succ_cons]
        refine ⟨hrest.order, hrest.jobs, fun entry => ?_, hrest.objects, hrest.temps⟩
        have hfiles : (store.forget removed oldest).files = store.files.erase oldest :=
          if_pos (hremoved oldest)
        rw [hrest.files, hfiles, Dictionary.mem_entries_erase, List.mem_cons, not_or, and_assoc]
      · have hlength : (oldest :: rest).length - maxJobs = 0 :=
          Nat.sub_eq_zero_of_le (Nat.le_of_not_lt hlong)
        rw [if_neg hlong, hlength, List.take_zero, List.drop_zero]
        exact ⟨rfl, hjobs, fun entry => (and_iff_left List.not_mem_nil).symm, rfl, rfl⟩

end Evicting

section Threads

variable {ρ : Type} {store store' : JobStore ρ}

/-- Jobs, temporary files and reports are kept under their ids. -/
structure Labelled (store : JobStore ρ) : Prop where
  objects : Keyed Job.id store.objects
  temps : Keyed Report.id store.temps
  files : Keyed Report.id store.files

/-- What a thread does to the store: it touches neither the order nor the map, and a file
that it writes is that of a job in the map. -/
structure Quiet (store store' : JobStore ρ) : Prop where
  order : store'.order = store.order
  jobs : store'.jobs = store.jobs
  filed : ∀ jobId ∈ store'.files.keys, jobId ∈ store.files.keys ∨ jobId ∈ store.jobs
  labelled : Labelled store → Labelled store'

theorem Quiet.refl (store : JobStore ρ) : Quiet store store :=
  ⟨rfl, rfl, fun _ => .inl, id⟩

theorem Quiet.trans {store'' : JobStore ρ} (h : Quiet store store') (h' : Quiet store' store'') :
    Quiet store store'' where
  order := h'.order.trans h.order
  jobs := h'.jobs.trans h.jobs
  filed jobId hjob := by
    rcases h'.filed jobId hjob with hfile | hheld
    · exact h.filed jobId hfile
    · exact .inr (h.jobs ▸ hheld)
  labelled := h'.labelled ∘ h.labelled

theorem quiet_threads (store : JobStore ρ) (threads : Dictionary String Thread) :
    Quiet store { store with threads := threads } :=
  ⟨rfl, rfl, fun _ => .inl, fun h => ⟨h.objects, h.temps, h.files⟩⟩

theorem quiet_change (store : JobStore ρ) (jobId : String) {f : Job ρ → Job ρ}
    (hid : ∀ job, (f job).id = job.id) : Quiet store (store.change jobId f) := by
  unfold JobStore.change
  split
  · rename_i job hget
    refine ⟨rfl, rfl, fun _ => .inl, fun h => ⟨h.objects.set ?_, h.temps, h.files⟩⟩
    rw [hid, h.objects.get hget]
  · exact .refl store

theorem quiet_finish (store : JobStore ρ) (jobId : String) : Quiet store (store.finish jobId) := by
  refine (quiet_change store jobId ?_).trans (quiet_threads _ _)
  exact fun _ => rfl

theorem quiet_fail (store : JobStore ρ) (jobId error : String) :
    Quiet store (store.fail jobId error) := by
  refine (quiet_change store jobId ?_).trans (quiet_threads _ _)
  exact fun _ => rfl

theorem quiet_writeTemp (store : JobStore ρ) (jobId : String) (writing : Writing) :
    Quiet store (store.writeTemp jobId writing) := by
  unfold JobStore.writeTemp
  split
  · exact quiet_finish store jobId
  · rename_i job result hfound
    cases writing with
    | done mtime =>
        obtain ⟨held, hget, hresult⟩ := Option.bind_eq_some_iff.mp hfound
        obtain ⟨_, -, hpair⟩ := Option.map_eq_some_iff.mp hresult
        obtain ⟨rfl, rfl⟩ := Prod.mk.inj hpair
        refine ⟨rfl, rfl, fun _ => .inl, fun h => ⟨h.objects, h.temps.set ?_, h.files⟩⟩
        exact h.objects.get hget
    | refused => exact quiet_finish store jobId
    | raised error => exact quiet_fail store jobId error

/-- A file is written under the lock only for a job that is still in the map. -/
theorem quiet_rename (store : JobStore ρ) (jobId : String) (renamed : Bool) :
    Quiet store (store.rename jobId renamed) := by
  have hcleared : Quiet store { store with temps := store.temps.erase jobId } :=
    ⟨rfl, rfl, fun _ => .inl, fun h => ⟨h.objects, h.temps.erase jobId, h.files⟩⟩
  unfold JobStore.rename
  by_cases hheld : jobId ∈ store.jobs
  · rw [if_neg (not_not_intro hheld)]
    split
    · rename_i report _ hget
      refine ⟨rfl, rfl, fun other hother => ?_, fun h => ?_⟩
      · rcases Dictionary.mem_keys_set.mp hother with hold | rfl
        · exact .inl hold
        · exact .inr hheld
      · exact ⟨h.objects, h.temps.erase jobId, h.files.set (h.temps.get hget)⟩
    · exact hcleared
  · rw [if_pos hheld]
    exact hcleared

end Threads

section Restarting

variable {ρ : Type} {store : JobStore ρ}

/-- Jobs that are new are put behind the others, in the order and in the map. -/
theorem foldl_add (jobs : List (Job ρ)) (store : JobStore ρ) (hsame : store.jobs = store.order)
    (hnew : (store.order ++ jobs.map Job.id).Nodup) :
    (jobs.foldl JobStore.add store).order = store.order ++ jobs.map Job.id ∧
      (jobs.foldl JobStore.add store).jobs = store.order ++ jobs.map Job.id ∧
      (jobs.foldl JobStore.add store).files = store.files ∧
      (Labelled store → Labelled (jobs.foldl JobStore.add store)) := by
  induction jobs generalizing store with
  | nil =>
      rw [List.map_nil, List.append_nil]
      exact ⟨rfl, hsame, rfl, id⟩
  | cons job rest ih =>
      have hfresh : job.id ∉ store.jobs := by
        rw [hsame]
        intro hmem
        exact (List.nodup_append.mp hnew).2.2 _ hmem _ List.mem_cons_self rfl
      have hjobs : (store.add job).jobs = store.order ++ [job.id] := by
        rw [← hsame]
        exact if_neg hfresh
      have happend : (store.add job).order ++ rest.map Job.id =
          store.order ++ (job :: rest).map Job.id := List.append_assoc ..
      obtain ⟨horder, hheld, hfiles, hlabelled⟩ := ih (store.add job) hjobs (happend ▸ hnew)
      rw [List.foldl_cons, horder, hheld, happend]
      refine ⟨rfl, rfl, hfiles, fun h => hlabelled ?_⟩
      exact ⟨h.objects.set rfl, h.temps, h.files⟩

theorem listed_eq {names : List String} (h : ∀ name ∈ names, name ∈ store.files.keys) :
    (store.listed names).map Prod.fst = names := by
  unfold JobStore.listed
  induction names with
  | nil => rfl
  | cons name rest ih =>
      rw [List.forall_mem_cons] at h
      obtain ⟨report, hreport⟩ := Dictionary.mem_keys_iff.mp h.1
      rw [List.filterMap_cons_some (by rw [hreport]; rfl), List.map_cons, ih h.2]

theorem mem_listed {names : List String} {file : String × Report ρ}
    (h : file ∈ store.listed names) : file ∈ store.files.entries := by
  unfold JobStore.listed at h
  obtain ⟨name, -, hname⟩ := List.mem_filterMap.mp h
  obtain ⟨report, hreport, rfl⟩ := Option.map_eq_some_iff.mp hname
  exact Dictionary.get?_eq_some_iff.mp hreport

theorem lastOf_eq {α : Type} {n : Nat} {items : List α} (h : items.length ≤ n) :
    lastOf n items = items := by
  unfold lastOf
  split
  · rfl
  · rw [Nat.sub_eq_zero_of_le h, List.drop_zero]

/-- A new process holds the jobs of the report files. -/
theorem restart_spec {maxJobs : Nat} {names : List String} {readable : String → Bool}
    (hreadable : ∀ jobId, readable jobId = true) (hlabelled : Labelled store)
    (hnames : names.Perm store.files.keys) (hfew : store.files.keys.length ≤ maxJobs) :
    (store.restart maxJobs names readable).order.Perm store.files.keys ∧
      (store.restart maxJobs names readable).jobs = (store.restart maxJobs names readable).order ∧
      (store.restart maxJobs names readable).files = store.files ∧
      Labelled (store.restart maxJobs names readable) := by
  have hlisted := listed_eq fun name => hnames.mem_iff.mp
  have hperm := (store.listed names).perm_insertionSort fun a b => a.2.mtime ≤ b.2.mtime
  generalize hsorted : (store.listed names).insertionSort (fun a b => a.2.mtime ≤ b.2.mtime) =
    sorted at hperm
  have hkeys : (sorted.map Prod.fst).Perm store.files.keys := by
    have hmapped := hperm.map Prod.fst
    rw [hlisted] at hmapped
    exact hmapped.trans hnames
  have hfound : (lastOf maxJobs sorted).filter (fun file => readable file.1) = sorted := by
    have hlength : sorted.length ≤ maxJobs := by
      rw [← List.length_map, hkeys.length_eq]
      exact hfew
    rw [lastOf_eq hlength, List.filter_eq_self]
    exact fun file _ => hreadable file.1
  have hids : (sorted.map fun file => file.2.job).map Job.id = sorted.map Prod.fst := by
    rw [List.map_map]
    refine List.map_congr_left fun file hfile => ?_
    exact hlabelled.files file (mem_listed (hperm.mem_iff.mp hfile))
  have hnodup : (sorted.map Prod.fst).Nodup := hkeys.nodup_iff.mpr store.files.nodup_keys
  obtain ⟨horder, hjobs, hfiles, hkept⟩ := foldl_add (sorted.map fun file => file.2.job)
    { store with objects := .empty, jobs := [], order := [], threads := .empty } rfl
    (by rwa [hids])
  unfold JobStore.restart
  rw [hsorted]
  dsimp only
  rw [hfound, horder, hjobs, hids]
  exact ⟨hkeys, rfl, hfiles, hkept ⟨keyed_empty, hlabelled.temps, hlabelled.files⟩⟩

end Restarting

section Runs

variable {ρ : Type} {maxJobs : Nat} {store store' : JobStore ρ} {label : Label ρ}
  {past : List (JobStore ρ × Label ρ)}

/-- What a step may be: a job is created, a new process starts, or a thread goes on. -/
theorem step_cases (h : step maxJobs store label = some store') :
    (∃ job removed, label.created = some job.id ∧
      (label.Served → ∀ jobId, removed jobId = true) ∧
        store' = store.create maxJobs removed job) ∨
    (∃ names readable, label.created = none ∧
      (label.Served → ∀ jobId, readable jobId = true) ∧
        names.Perm store.files.keys ∧ store' = store.restart maxJobs names readable) ∨
    (label.created = none ∧ Quiet store store') := by
  cases label with
  | create id kind name createdAt removed =>
      exact .inl ⟨_, removed, rfl, fun h => h, (Option.some.inj h).symm⟩
  | run jobId =>
      obtain ⟨-, h⟩ := Option.ite_none_right_eq_some.mp h
      obtain rfl := Option.some.inj h
      refine .inr (.inr ⟨rfl, (quiet_change store jobId ?_).trans (quiet_threads _ _)⟩)
      exact fun _ => rfl
  | progress jobId message done total =>
      obtain ⟨-, h⟩ := Option.ite_none_right_eq_some.mp h
      obtain rfl := Option.some.inj h
      exact .inr (.inr ⟨rfl, quiet_change store jobId fun _ => rfl⟩)
  | work jobId outcome =>
      obtain ⟨-, h⟩ := Option.ite_none_right_eq_some.mp h
      cases outcome with
      | ok result =>
          obtain rfl := Option.some.inj h
          refine .inr (.inr ⟨rfl, (quiet_change store jobId ?_).trans (quiet_threads _ _)⟩)
          exact fun _ => rfl
      | error e =>
          obtain rfl := Option.some.inj h
          exact .inr (.inr ⟨rfl, quiet_fail store jobId e⟩)
  | writeTemp jobId writing =>
      obtain ⟨-, h⟩ := Option.ite_none_right_eq_some.mp h
      obtain rfl := Option.some.inj h
      exact .inr (.inr ⟨rfl, quiet_writeTemp store jobId writing⟩)
  | rename jobId renamed =>
      obtain ⟨-, h⟩ := Option.ite_none_right_eq_some.mp h
      obtain rfl := Option.some.inj h
      exact .inr (.inr ⟨rfl, (quiet_rename store jobId renamed).trans (quiet_finish _ jobId)⟩)
  | restart names readable =>
      obtain ⟨hnames, h⟩ := Option.ite_none_right_eq_some.mp h
      obtain rfl := Option.some.inj h
      exact .inr (.inl ⟨names, readable, rfl, fun h => h, List.isPerm_iff.mp hnames, rfl⟩)

structure Kept (maxJobs : Nat) (store : JobStore ρ) : Prop where
  same : store.jobs = store.order
  nodup : store.order.Nodup
  few : store.order.length ≤ maxJobs
  filed : ∀ jobId ∈ store.files.keys, jobId ∈ store.order
  labelled : Labelled store

theorem Kept.inStep (h : Kept maxJobs store) : InStep maxJobs store where
  same jobId := by rw [h.same]
  nodup_order := h.nodup
  nodup_jobs := h.same ▸ h.nodup
  few := h.few
  filed jobId hfile := h.same ▸ h.filed jobId hfile

theorem kept_initial (maxJobs : Nat) : Kept maxJobs (.initial : JobStore ρ) where
  same := rfl
  nodup := .nil
  few := Nat.zero_le _
  filed _ h := h
  labelled := ⟨keyed_empty, keyed_empty, keyed_empty⟩

theorem nodup_snoc {ids : List String} {jobId : String} (h : ids.Nodup) (hnew : jobId ∉ ids) :
    (ids ++ [jobId]).Nodup := by
  rw [← List.concat_eq_append]
  exact h.concat hnew

/-- A job that is created comes last, and the first go where there are too many. -/
theorem kept_create {removed : String → Bool} (hremoved : ∀ jobId, removed jobId = true)
    {job : Job ρ} (h : Kept maxJobs store) (hnew : job.id ∉ store.order) :
    Kept maxJobs (store.create maxJobs removed job) ∧
      ∀ jobId ∈ (store.create maxJobs removed job).order,
        jobId ∈ store.order ∨ jobId = job.id := by
  have hadded : (store.add job).jobs = store.order ++ [job.id] := by
    rw [← h.same] at hnew ⊢
    exact if_neg hnew
  have hnodup := nodup_snoc h.nodup hnew
  have hevicted : Evicted _ _
      { store.add job with threads := store.threads.set job.id .created }
      (store.create maxJobs removed job) := evicted_evict hremoved hnodup hadded
  have hsplit := List.take_append_drop ((store.order ++ [job.id]).length - maxJobs)
    (store.order ++ [job.id])
  refine ⟨⟨?_, ?_, ?_, ?_, ?_, ?_, ?_⟩, ?_⟩
  · rw [hevicted.jobs, hevicted.order]
  · rw [hevicted.order]
    exact hnodup.sublist (List.drop_sublist _ _)
  · rw [hevicted.order, List.length_drop]
    omega
  · intro jobId hfile
    obtain ⟨entry, hentry, rfl⟩ := List.mem_map.mp hfile
    obtain ⟨hold, hkept⟩ := (hevicted.files entry).mp hentry
    have hfiled : entry.1 ∈ store.order ++ [job.id] :=
      List.mem_append_left _ (h.filed _ (List.mem_map_of_mem hold))
    rw [← hsplit, List.mem_append] at hfiled
    rw [hevicted.order]
    exact hfiled.resolve_left hkept
  · rw [hevicted.objects]
    exact h.labelled.objects.set rfl
  · rw [hevicted.temps]
    exact h.labelled.temps
  · exact fun entry hentry => h.labelled.files entry ((hevicted.files entry).mp hentry).1
  · intro jobId hjob
    rw [hevicted.order] at hjob
    rcases List.mem_append.mp (List.mem_of_mem_drop hjob) with hold | hlast
    · exact .inl hold
    · exact .inr (List.mem_singleton.mp hlast)

theorem kept_restart {names : List String} {readable : String → Bool}
    (hreadable : ∀ jobId, readable jobId = true) (h : Kept maxJobs store)
    (hnames : names.Perm store.files.keys) :
    Kept maxJobs (store.restart maxJobs names readable) ∧
      ∀ jobId ∈ (store.restart maxJobs names readable).order, jobId ∈ store.order := by
  have hfew : store.files.keys.length ≤ maxJobs :=
    (store.files.nodup_keys.length_le_of_subset h.filed).trans h.few
  obtain ⟨horder, hjobs, hfiles, hlabelled⟩ := restart_spec hreadable h.labelled hnames hfew
  refine ⟨⟨hjobs, horder.nodup_iff.mpr store.files.nodup_keys, ?_, ?_, hlabelled⟩, ?_⟩
  · rw [horder.length_eq]
    exact hfew
  · rw [hfiles]
    exact fun jobId => horder.mem_iff.mpr
  · exact fun jobId hjob => h.filed jobId (horder.mem_iff.mp hjob)

theorem kept_quiet (h : Kept maxJobs store) (hquiet : Quiet store store') :
    Kept maxJobs store' where
  same := by rw [hquiet.jobs, hquiet.order, h.same]
  nodup := hquiet.order ▸ h.nodup
  few := hquiet.order ▸ h.few
  filed jobId hfile := by
    rw [hquiet.order]
    rcases hquiet.filed jobId hfile with hold | hheld
    · exact h.filed jobId hold
    · exact h.same ▸ hheld
  labelled := hquiet.labelled h.labelled

/-- A step keeps the invariant, and puts no other job into the order than it creates. -/
theorem kept_step (h : Kept maxJobs store)
    (hfresh : ∀ jobId, label.created = some jobId → jobId ∉ store.order)
    (hserved : label.Served) (hstep : step maxJobs store label = some store') :
    Kept maxJobs store' ∧
      ∀ jobId ∈ store'.order, jobId ∈ store.order ∨ label.created = some jobId := by
  rcases step_cases hstep with ⟨job, removed, hcreated, hremoved, rfl⟩ |
    ⟨names, readable, -, hreadable, hnames, rfl⟩ | ⟨-, hquiet⟩
  · obtain ⟨hkept, hgrew⟩ := kept_create (hremoved hserved) h (hfresh job.id hcreated)
    refine ⟨hkept, fun jobId hjob => (hgrew jobId hjob).imp_right ?_⟩
    rintro rfl
    exact hcreated
  · obtain ⟨hkept, hgrew⟩ := kept_restart (hreadable hserved) h hnames
    exact ⟨hkept, fun jobId hjob => .inl (hgrew jobId hjob)⟩
  · exact ⟨kept_quiet h hquiet, fun jobId hjob => .inl (hquiet.order ▸ hjob)⟩

theorem createdIds_snoc (past : List (JobStore ρ × Label ρ)) (store : JobStore ρ)
    (label : Label ρ) :
    createdIds (past ++ [(store, label)]) = createdIds past ++ label.created.toList := by
  cases h : label.created <;> simp [createdIds, h]

/-- A job left the order at a step of the run. -/
def Left (maxJobs : Nat) (past : List (JobStore ρ × Label ρ)) (jobId : String) : Prop :=
  ∃ moment ∈ past, jobId ∈ moment.1.order ∧
    ∃ next, step maxJobs moment.1 moment.2 = some next ∧ jobId ∉ next.order

/-- What a run keeps: only ids that were given are in the order, and one that left it does
not come back. -/
theorem kept_run (run : Run (step maxJobs) .initial past store)
    (hfresh : (createdIds past).Nodup) (hserved : ∀ moment ∈ past, moment.2.Served) :
    Kept maxJobs store ∧ (∀ jobId ∈ store.order, jobId ∈ createdIds past) ∧
      ∀ jobId, Left maxJobs past jobId → jobId ∈ createdIds past ∧ jobId ∉ store.order := by
  induction run with
  | refl => exact ⟨kept_initial maxJobs, fun _ h => h, fun _ ⟨_, hmem, _⟩ => nomatch hmem⟩
  | @snoc past store store' label run hstep ih =>
      rw [createdIds_snoc, List.nodup_append] at hfresh
      obtain ⟨hpast, -, hapart⟩ := hfresh
      rw [List.forall_mem_append] at hserved
      obtain ⟨hkept, hknown, hleft⟩ := ih hpast hserved.1
      have hnew : ∀ jobId, label.created = some jobId → jobId ∉ createdIds past := by
        intro jobId hcreated hmem
        refine hapart jobId hmem jobId ?_ rfl
        rw [hcreated]
        exact List.mem_singleton_self jobId
      obtain ⟨hkept', hgrew⟩ := kept_step hkept
        (fun jobId hcreated hmem => hnew jobId hcreated (hknown jobId hmem))
        (hserved.2 _ (List.mem_singleton_self _)) hstep
      rw [createdIds_snoc]
      refine ⟨hkept', ?_, ?_⟩
      · intro jobId hjob
        rw [List.mem_append]
        rcases hgrew jobId hjob with hold | hcreated
        · exact .inl (hknown jobId hold)
        · rw [hcreated]
          exact .inr (List.mem_singleton_self jobId)
      · rintro jobId ⟨moment, hmem, hheld, next, hnext, hgone⟩
        rw [List.mem_append]
        rcases List.mem_append.mp hmem with hearlier | hlast
        · obtain ⟨hgiven, hout⟩ := hleft jobId ⟨moment, hearlier, hheld, next, hnext, hgone⟩
          refine ⟨.inl hgiven, fun hback => ?_⟩
          rcases hgrew jobId hback with hold | hcreated
          · exact hout hold
          · exact hnew jobId hcreated hgiven
        · obtain rfl := List.mem_singleton.mp hlast
          obtain rfl := Option.some.inj (hnext.symm.trans hstep)
          exact ⟨.inl (hknown jobId hheld), hgone⟩

/-- Whatever the order of the steps, the store and its directory are in step, and a job
that left the order is not in the map and has no report file. -/
theorem inStep_run (run : Run (step maxJobs) .initial past store)
    (hfresh : (createdIds past).Nodup) (hserved : ∀ moment ∈ past, moment.2.Served) :
    InStep maxJobs store ∧
      ∀ jobId, Left maxJobs past jobId → jobId ∉ store.jobs ∧ jobId ∉ store.files.keys := by
  obtain ⟨hkept, -, hleft⟩ := kept_run run hfresh hserved
  refine ⟨hkept.inStep, fun jobId h => ?_⟩
  obtain ⟨-, hout⟩ := hleft jobId h
  rw [hkept.same]
  exact ⟨hout, fun hfile => hout (hkept.filed jobId hfile)⟩

/-- The first job leaves the order between the two halves of its writing, and a new
process starts when the second has been written. -/
def evictedWhileWriting : List (Label Nat) :=
  [.create "a" "audit" "https://a.ir" "" fun _ => true,
   .run "a",
   .work "a" (.ok 70),
   .writeTemp "a" (.done 1),
   .create "b" "audit" "https://b.ir" "" fun _ => true,
   .rename "a" true,
   .run "b",
   .progress "b" "" 1 2,
   .work "b" (.ok 80),
   .writeTemp "b" (.done 2),
   .rename "b" true,
   .restart ["b"] fun _ => true]

theorem inStep_run_evictedWhileWriting : ∃ past store,
    past.map Prod.snd = evictedWhileWriting ∧ Run (step 1) .initial past store ∧
      store.files.keys = ["b"] ∧ InStep 1 store ∧
      ∀ jobId, Left 1 past jobId → jobId ∉ store.jobs ∧ jobId ∉ store.files.keys := by
  obtain ⟨past, store, hlabels, run, hfiles⟩ := Run.of_check (step 1) .initial
    evictedWhileWriting (fun _ store => store.files.keys == ["b"]) (by decide +kernel)
  have hfresh : (createdIds past).Nodup := by
    have hids : createdIds past = (past.map Prod.snd).filterMap Label.created := by
      rw [List.filterMap_map]
      rfl
    rw [hids, hlabels]
    decide
  have hserved : ∀ moment ∈ past, moment.2.Served := by
    have hlist : ∀ label ∈ evictedWhileWriting, label.Served := by
      simp [evictedWhileWriting, Label.Served]
    rw [← hlabels, List.forall_mem_map] at hlist
    exact hlist
  obtain ⟨hinStep, hleft⟩ := inStep_run run hfresh hserved
  exact ⟨past, store, hlabels, run, beq_iff_eq.mp hfiles, hinStep, hleft⟩

end Runs

end SeoPlatform.Engine.DashboardJobs
