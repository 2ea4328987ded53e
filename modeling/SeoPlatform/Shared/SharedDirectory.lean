import SeoPlatform.Foundation.TransitionSystem
import SeoPlatform.Shared.FileStore

namespace SeoPlatform.Shared.SharedDirectory

open SeoPlatform.Foundation.TransitionSystem
open SeoPlatform.Shared.Exceptions
open SeoPlatform.Shared.Jobs
open SeoPlatform.Shared.FileStore

/-- A call on a store. `mark_running`, `complete` and `fail` are updates. -/
inductive Call where
  | create (job : NewJob)
  | get (jobId : String) (tenantId : Option String)
  | update (jobId : String) (changes : Changes)

def Call.jobId : Call → String
  | .create job => job.jobId
  | .get jobId _ => jobId
  | .update jobId _ => jobId

@[simp] theorem jobId_create (job : NewJob) : (Call.create job).jobId = job.jobId := rfl
@[simp] theorem jobId_get (jobId : String) (tenantId : Option String) :
    (Call.get jobId tenantId).jobId = jobId := rfl
@[simp] theorem jobId_update (jobId : String) (changes : Changes) :
    (Call.update jobId changes).jobId = jobId := rfl

/-- An instance, the reading of its clock, and what is called on it. -/
structure Label where
  caller : Nat
  clock : Nat
  call : Call

/-- The memories of the instances on one directory, its files, and all records
that were written, the oldest first. -/
structure System where
  memories : Nat → Records
  files : Records
  written : List JobRecord

def System.initial : System where
  memories _ _ := none
  files _ := none
  written := []

def System.store (s : System) (n : Nat) : FileJobStore where
  memory := s.memories n
  files := s.files

/-- What a call returns, what it leaves, and the record it wrote. -/
def perform (store : FileJobStore) (clock : Nat) :
    Call → Except Exn (Option JobRecord) × FileJobStore × Option JobRecord
  | .create job =>
      let (record, after) := store.create job clock
      (.ok (some record), after, some record)
  | .get jobId tenantId =>
      let (found, after) := store.get jobId tenantId
      (.ok found, after, none)
  | .update jobId changes =>
      match store.update jobId changes clock with
      | (.ok record, after) => (.ok (some record), after, some record)
      | (.error e, after) => (.error e, after, none)

def answer (s : System) (label : Label) : Except Exn (Option JobRecord) :=
  (perform (s.store label.caller) label.clock label.call).1

def writes (s : System) (label : Label) : Option JobRecord :=
  (perform (s.store label.caller) label.clock label.call).2.2

def step (s : System) (label : Label) : Option System :=
  let after := (perform (s.store label.caller) label.clock label.call).2.1
  some {
    memories := Function.update s.memories label.caller after.memory
    files := after.files
    written := s.written ++ (writes s label).toList }

/-- The last record that was written for a job. -/
def lastWritten (written : List JobRecord) (jobId : String) : Option JobRecord :=
  (written.filter fun r => r.jobId = jobId).getLast?

/-- What one store that remembers nothing would answer. -/
def current (s : System) (label : Label) : Except Exn (Option JobRecord) :=
  match label.call with
  | .create job => .ok (some (job.record label.clock))
  | .get jobId tenantId => .ok (owned (lastWritten s.written jobId) tenantId)
  | .update jobId changes =>
      match lastWritten s.written jobId with
      | none => .error (.keyError jobId)
      | some record => .ok (some (record.changed changes label.clock))

/-- A get returns the last record written, and an update starts from it. -/
def Current (s : System) (label : Label) : Prop := answer s label = current s label

/-- Another instance has written the record since this one came to remember it. -/
def overtaken : List (System × Label) → Nat → String → Bool
  | [], _, _ => false
  | (s, label) :: later, n, jobId =>
      overtaken later n jobId ||
        (writes s label).any (fun r => r.jobId = jobId) && label.caller ≠ n &&
          (s.memories n jobId).isSome &&
          later.all fun l => !(l.2.caller = n && l.2.call.jobId = jobId)

def Call.isCreate : Call → Bool
  | .create _ => true
  | _ => false

/-- What comes after `before` reads and updates no overtaken record. -/
def inStepAfter : List (System × Label) → List (System × Label) → Bool
  | _, [] => true
  | before, moment :: later =>
      (moment.2.call.isCreate || !overtaken before moment.2.caller moment.2.call.jobId) &&
        inStepAfter (before ++ [moment]) later

/-- No instance reads or updates a record that another one has written since it
remembered it. -/
def neverOvertaken (past : List (System × Label)) : Bool := inStepAfter [] past

section Calls

variable {store : FileJobStore} {jobId : String} {record : JobRecord}

/-- What a call does to one instance: it touches no other job, and it either
writes a record to both places or only remembers the one it found. -/
structure Touches (store : FileJobStore) (jobId : String) (after : FileJobStore)
    (record : Option JobRecord) : Prop where
  memory : ∀ other, other ≠ jobId → after.memory other = store.memory other
  files : ∀ other, other ≠ jobId → after.files other = store.files other
  wrote : ∀ r, record = some r →
    r.jobId = jobId ∧ after.memory jobId = some r ∧ after.files jobId = some r
  read : record = none →
    after.memory jobId = store.find jobId ∧ after.files jobId = store.files jobId

theorem touches_write (hid : record.jobId = jobId) {before : FileJobStore}
    (hmemory : ∀ other, other ≠ jobId → before.memory other = store.memory other)
    (hfiles : before.files = store.files) :
    Touches store jobId (before.write record) (some record) := by
  refine ⟨?_, ?_, ?_, fun h => by contradiction⟩
  · intro other hne
    rw [memory_write, if_neg (by rwa [hid])]
    exact hmemory other hne
  · intro other hne
    rw [files_write, if_neg (by rwa [hid]), hfiles]
  · rintro _ ⟨⟩
    exact ⟨hid, by simp [hid], by simp [hid]⟩

theorem touches_remember : Touches store jobId (store.remember jobId) none := by
  refine ⟨?_, fun _ _ => rfl, fun _ h => by contradiction, fun _ => ⟨by simp, rfl⟩⟩
  intro other hne
  rw [memory_remember, if_neg hne]

theorem touches_perform (store : FileJobStore) (hmemory : Labelled store.memory)
    (hfiles : Labelled store.files) (clock : Nat) (call : Call) :
    Touches store call.jobId (perform store clock call).2.1 (perform store clock call).2.2 := by
  cases call with
  | create job =>
      show Touches store job.jobId (store.write (job.record clock)) (some (job.record clock))
      exact touches_write (jobId_record job clock) (fun _ _ => rfl) rfl
  | get jobId tenantId => exact touches_remember
  | update jobId changes =>
      simp only [perform, FileJobStore.update]
      cases hfind : store.find jobId with
      | none => exact touches_remember
      | some record =>
          have hid : record.jobId = jobId := jobId_of_find hmemory hfiles hfind
          have hchanged : (record.changed changes clock).jobId = jobId := hid
          refine touches_write hchanged ?_ rfl
          intro other hne
          rw [memory_remember, if_neg hne]

end Calls

theorem lastWritten_append (written : List JobRecord) (r : JobRecord) (jobId : String) :
    lastWritten (written ++ [r]) jobId =
      if jobId = r.jobId then some r else lastWritten written jobId := by
  unfold lastWritten
  rw [List.filter_append]
  by_cases h : r.jobId = jobId
  · simp [h]
  · simp [h, Ne.symm h]

/-- What is remembered is what was written last, unless it was overtaken. -/
structure InStep (past : List (System × Label)) (s : System) : Prop where
  files : ∀ jobId, s.files jobId = lastWritten s.written jobId
  labelled : (∀ n, Labelled (s.memories n)) ∧ Labelled s.files
  memories : ∀ n jobId, s.memories n jobId = none ∨
    s.memories n jobId = s.files jobId ∨ overtaken past n jobId = true

theorem lastWritten_toList (written : List JobRecord) (wrote : Option JobRecord)
    (jobId : String) :
    lastWritten (written ++ wrote.toList) jobId =
      if wrote.any (fun r => r.jobId = jobId) then wrote else lastWritten written jobId := by
  cases wrote with
  | none => simp
  | some r => simp [lastWritten_append, eq_comm]

theorem overtaken_snoc {past : List (System × Label)} {moment : System × Label} {n : Nat}
    {jobId : String} (h : overtaken past n jobId = true)
    (hother : ¬ (moment.2.caller = n ∧ moment.2.call.jobId = jobId)) :
    overtaken (past ++ [moment]) n jobId = true := by
  induction past with
  | nil => contradiction
  | cons first rest ih =>
      simp only [List.cons_append, overtaken, Bool.or_eq_true] at h ⊢
      rcases h with hlater | hnow
      · exact .inl (ih hlater)
      · right
        simp only [Bool.and_eq_true, List.all_append, List.all_cons, List.all_nil] at hnow ⊢
        obtain ⟨hwrote, hall⟩ := hnow
        exact ⟨hwrote, hall, by simpa using not_and_or.mp hother, trivial⟩

/-- A write by another instance overtakes the ones that remember the record. -/
theorem overtaken_by {past : List (System × Label)} {s : System} {label : Label} {n : Nat}
    {jobId : String} (hwrites : (writes s label).any (fun r => r.jobId = jobId) = true)
    (hother : label.caller ≠ n) (hheld : (s.memories n jobId).isSome = true) :
    overtaken (past ++ [(s, label)]) n jobId = true := by
  induction past with
  | nil => simp [overtaken, hwrites, hother, hheld]
  | cons first rest ih => simp [overtaken, ih]

theorem inStepAfter_snoc (before past : List (System × Label)) (moment : System × Label) :
    inStepAfter before (past ++ [moment]) = (inStepAfter before past &&
      (moment.2.call.isCreate ||
        !overtaken (before ++ past) moment.2.caller moment.2.call.jobId)) := by
  induction past generalizing before with
  | nil => simp [inStepAfter]
  | cons first rest ih =>
      simp only [List.cons_append, inStepAfter, ih, Bool.and_assoc]
      rw [List.append_assoc, List.singleton_append]

theorem neverOvertaken_snoc {past : List (System × Label)} {moment : System × Label} :
    neverOvertaken (past ++ [moment]) = true ↔ neverOvertaken past = true ∧
      (moment.2.call.isCreate = true ∨
        overtaken past moment.2.caller moment.2.call.jobId = false) := by
  unfold neverOvertaken
  rw [inStepAfter_snoc]
  simp

section Steps

variable {past : List (System × Label)} {s s' : System} {label : Label}

/-- A caller that has not been overtaken finds the record written last. -/
theorem find_eq_lastWritten {n : Nat} {jobId : String} (h : InStep past s)
    (hfresh : overtaken past n jobId = false) :
    (s.store n).find jobId = lastWritten s.written jobId := by
  rw [← h.files jobId]
  show (s.memories n jobId).or (s.files jobId) = s.files jobId
  rcases h.memories n jobId with hnone | hsame | hstale
  · rw [hnone, Option.none_or]
  · rw [hsame, Option.or_self]
  · rw [hfresh] at hstale
    contradiction

theorem current_of_fresh (h : InStep past s)
    (hfresh : label.call.isCreate = true ∨
      overtaken past label.caller label.call.jobId = false) : Current s label := by
  rcases label with ⟨n, clock, call⟩
  cases call with
  | create job => rfl
  | get jobId tenantId =>
      have hnow : overtaken past n jobId = false := hfresh.resolve_left Bool.false_ne_true
      have hfind := find_eq_lastWritten h hnow
      show Except.ok (owned ((s.store n).find jobId) tenantId) = _
      rw [hfind]
      rfl
  | update jobId changes =>
      have hnow : overtaken past n jobId = false := hfresh.resolve_left Bool.false_ne_true
      have hfind := find_eq_lastWritten h hnow
      simp only [Current, answer, current, perform, FileJobStore.update, hfind]
      cases lastWritten s.written jobId <;> rfl

/-- What the files are after a call. -/
theorem files_perform {store after : FileJobStore} {jobId : String} {wrote : Option JobRecord}
    (h : Touches store jobId after wrote) (other : String) :
    after.files other =
      if wrote.any (fun r => r.jobId = other) then wrote else store.files other := by
  cases wrote with
  | none =>
      rcases eq_or_ne other jobId with rfl | hne
      · simpa using (h.read rfl).2
      · simpa using h.files other hne
  | some r =>
      obtain ⟨hid, -, hfile⟩ := h.wrote r rfl
      rcases eq_or_ne other jobId with rfl | hne
      · simpa [hid] using hfile
      · rw [h.files other hne]
        simp [hid, hne.symm]

/-- After a call that was not overtaken the caller remembers what the file says. -/
theorem memory_perform {store after : FileJobStore} {jobId : String} {wrote : Option JobRecord}
    (h : Touches store jobId after wrote)
    (hfind : wrote = none → store.find jobId = store.files jobId) :
    after.memory jobId = after.files jobId := by
  cases wrote with
  | none =>
      obtain ⟨hmemory, hfile⟩ := h.read rfl
      rw [hmemory, hfile, hfind rfl]
  | some r =>
      obtain ⟨-, hmemory, hfile⟩ := h.wrote r rfl
      rw [hmemory, hfile]

theorem labelled_perform {store after : FileJobStore} {jobId : String} {wrote : Option JobRecord}
    (h : Touches store jobId after wrote) (hfiles : Labelled store.files) :
    Labelled after.files := by
  intro other r hr
  rw [files_perform h] at hr
  split at hr
  · rename_i hany
    rw [hr] at hany
    simpa using hany
  · exact hfiles other r hr

theorem inStep_of_step (h : InStep past s)
    (hfresh : label.call.isCreate = true ∨
      overtaken past label.caller label.call.jobId = false)
    (hstep : step s label = some s') : InStep (past ++ [(s, label)]) s' := by
  rcases label with ⟨n, clock, call⟩
  cases hstep
  have htouches := touches_perform (s.store n) (h.labelled.1 n) h.labelled.2 clock call
  have hfind : writes s ⟨n, clock, call⟩ = none →
      (s.store n).find call.jobId = s.files call.jobId := by
    intro hnone
    rw [h.files]
    apply find_eq_lastWritten h
    rcases hfresh with hcreate | hfresh
    · cases call <;> contradiction
    · exact hfresh
  have hown := memory_perform htouches hfind
  have hlabelled := labelled_perform htouches h.labelled.2
  refine ⟨?_, ⟨?_, hlabelled⟩, ?_⟩
  · intro jobId
    show _ = lastWritten (s.written ++ (writes s ⟨n, clock, call⟩).toList) jobId
    rw [lastWritten_toList, ← h.files]
    exact files_perform htouches jobId
  · intro m jobId r hr
    rcases eq_or_ne m n with rfl | hm
    · simp only [Function.update_self] at hr
      rcases eq_or_ne jobId call.jobId with rfl | hne
      · rw [hown] at hr
        exact hlabelled _ r hr
      · rw [htouches.memory jobId hne] at hr
        exact h.labelled.1 m jobId r hr
    · simp only [Function.update_of_ne hm] at hr
      exact h.labelled.1 m jobId r hr
  · intro m jobId
    rcases eq_or_ne m n with rfl | hm
    · simp only [Function.update_self]
      rcases eq_or_ne jobId call.jobId with rfl | hne
      · exact .inr (.inl hown)
      · rw [htouches.memory jobId hne, htouches.files jobId hne]
        rcases h.memories m jobId with hnone | hsame | hstale
        · exact .inl hnone
        · exact .inr (.inl hsame)
        · exact .inr (.inr (overtaken_snoc hstale fun hcalled => hne hcalled.2.symm))
    · simp only [Function.update_of_ne hm]
      rcases h.memories m jobId with hnone | hsame | hstale
      · exact .inl hnone
      · by_cases hany : (writes s ⟨n, clock, call⟩).any (fun r => r.jobId = jobId) = true
        · cases hheld : s.memories m jobId with
          | none => exact .inl rfl
          | some r =>
              exact .inr (.inr (overtaken_by hany hm.symm (by rw [hheld]; rfl)))
        · refine .inr (.inl ?_)
          have hfile := files_perform htouches jobId
          exact hsame.trans (hfile.trans (if_neg hany)).symm
      · exact .inr (.inr (overtaken_snoc hstale fun hcalled => hm hcalled.1.symm))

end Steps

theorem inStep_of_run {past : List (System × Label)} {s : System}
    (run : Run step System.initial past s) (h : neverOvertaken past = true) : InStep past s := by
  induction run with
  | refl =>
      refine ⟨fun _ => rfl, ⟨?_, ?_⟩, fun _ _ => .inl rfl⟩
      · intro n jobId r hr
        contradiction
      · intro jobId r hr
        contradiction
  | snoc run hstep ih =>
      obtain ⟨hbefore, hlast⟩ := neverOvertaken_snoc.mp h
      exact inStep_of_step (ih hbefore) hlast hstep

/-- Where no instance is overtaken, the instances on one directory answer as one
store: a get returns the record written last by any of them, and an update
starts from it. -/
theorem directory_is_one_store {past : List (System × Label)} {s : System}
    (run : Run step System.initial past s) (h : neverOvertaken past = true) :
    ∀ moment ∈ past, Current moment.1 moment.2 := by
  induction run with
  | refl =>
      intro moment hmem
      contradiction
  | @snoc past s s' label run hstep ih =>
      obtain ⟨hbefore, hlast⟩ := neverOvertaken_snoc.mp h
      intro moment hmem
      rcases List.mem_append.mp hmem with hold | hnew
      · exact ih hbefore moment hold
      · rw [List.mem_singleton.mp hnew]
        exact current_of_fresh (inStep_of_run run hbefore) hlast

/-- The API looks at a job only after the worker has finished it. -/
def finishedJob : List Label :=
  [⟨1, 0, .create { jobId := "c", subject := "https://shop.ir" }⟩,
   ⟨1, 1, .update "c" .running⟩,
   ⟨1, 3, .update "c" (.complete [("overall_score", .int 80)])⟩,
   ⟨0, 4, .get "c" none⟩]

theorem directory_is_one_store_finishedJob :
    ∃ (past : List (System × Label)) (s : System), past.map Prod.snd = finishedJob ∧
      Run step System.initial past s ∧ neverOvertaken past = true ∧
      ∀ moment ∈ past, Current moment.1 moment.2 := by
  obtain ⟨past, s, hlabels, run, hcheck⟩ :=
    Run.of_check step System.initial finishedJob (fun past _ => neverOvertaken past)
      (by decide +kernel)
  exact ⟨past, s, hlabels, run, hcheck, directory_is_one_store run hcheck⟩

/-- The worker runs a job while the API looks at it, and finishes it then. -/
def watchedJob : List Label :=
  [⟨1, 0, .create { jobId := "c", subject := "https://shop.ir" }⟩,
   ⟨1, 1, .update "c" .running⟩,
   ⟨0, 2, .get "c" none⟩,
   ⟨1, 3, .update "c" (.complete [("overall_score", .int 80)])⟩,
   ⟨0, 4, .get "c" none⟩]

def statusIn (answer : Except Exn (Option JobRecord)) : Option JobStatus :=
  match answer with
  | .ok (some record) => some record.status
  | _ => none

/-- A job that is completed still reads as running through the instance that
looked at it before. -/
theorem completed_reads_running :
    ∃ (past : List (System × Label)) (s : System), past.map Prod.snd = watchedJob ∧
      Run step System.initial past s ∧
      ∃ moment ∈ past, statusIn (answer moment.1 moment.2) = some .running ∧
        statusIn (current moment.1 moment.2) = some .completed ∧
        ¬ Current moment.1 moment.2 := by
  obtain ⟨past, s, hlabels, run, hcheck⟩ :=
    Run.of_check step System.initial watchedJob
      (fun past _ => past.any fun moment =>
        statusIn (answer moment.1 moment.2) = some .running ∧
          statusIn (current moment.1 moment.2) = some .completed) (by decide +kernel)
  obtain ⟨moment, hmem, hstatus⟩ := List.any_eq_true.mp hcheck
  obtain ⟨hanswer, hcurrent⟩ := of_decide_eq_true hstatus
  refine ⟨past, s, hlabels, run, moment, hmem, hanswer, hcurrent, ?_⟩
  intro hsame
  rw [show answer moment.1 moment.2 = current moment.1 moment.2 from hsame, hcurrent] at hanswer
  contradiction

end SeoPlatform.Shared.SharedDirectory
