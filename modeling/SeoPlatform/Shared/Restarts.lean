import Mathlib.Logic.Function.Basic
import SeoPlatform.Foundation.ExceptFlow
import SeoPlatform.Foundation.PythonJson
import SeoPlatform.Shared.Exceptions

namespace SeoPlatform.Shared.Restarts

open SeoPlatform.Foundation.ExceptFlow
open SeoPlatform.Foundation.JsonValue
open SeoPlatform.Foundation.Mapping
open SeoPlatform.Foundation.PythonJson
open SeoPlatform.Shared.Exceptions

section Records

/-- A dictionary with texts and other keys. -/
abbrev PyDict := List (Key × Value)

/-- The dataclass `JobRecord`, with results as the services build them. -/
structure JobRecord where
  jobId : String
  subject : String
  status : String := "queued"
  createdAt : String
  updatedAt : String
  error : Option String := none
  result : Option PyDict := none
  tenantId : Option String := none
  projectId : Option String := none

def optionalText : Option String → Value
  | none => .none
  | some s => .str s

/-- `asdict` of a record. -/
def JobRecord.toStorage (record : JobRecord) : Value :=
  .dict
    [(.str "job_id", .str record.jobId),
     (.str "subject", .str record.subject),
     (.str "status", .str record.status),
     (.str "created_at", .str record.createdAt),
     (.str "updated_at", .str record.updatedAt),
     (.str "error", optionalText record.error),
     (.str "result", (record.result.map .dict).getD .none),
     (.str "tenant_id", optionalText record.tenantId),
     (.str "project_id", optionalText record.projectId)]

/-- The names of the fields that `to_storage` writes. -/
def storedNames : List String :=
  ["job_id", "subject", "status", "created_at", "updated_at", "error", "result", "tenant_id",
   "project_id"]

/-- The names that a service's record class falls back on for the id, the subject and
the result of a document. -/
structure Fallbacks where
  jobId : String
  subject : String
  result : Option String
  jobId_fresh : jobId ∉ storedNames := by decide
  subject_fresh : subject ∉ storedNames := by decide

/-- A field of a document, of the types that `to_storage` gives it. -/
def textField (raw : PyDict) (name : String) : Option String :=
  match raw.lookup (.str name) with
  | some (.str s) => some s
  | _ => none

/-- `raw.get(name) or raw[other]`. -/
def textOr (raw : PyDict) (name other : String) : Option String :=
  match textField raw name with
  | some s => if s = "" then textField raw other else some s
  | none => textField raw other

def dictField (raw : PyDict) (name : String) : Option PyDict :=
  match raw.lookup (.str name) with
  | some (.dict entries) => some entries
  | _ => none

/-- The record of a document. Fields it does not know are passed over, and those that are
not there have their defaults. -/
def fromDict (names : Fallbacks) (raw : PyDict) : Option JobRecord := do
  let jobId ← textOr raw "job_id" names.jobId
  let subject ← textOr raw "subject" names.subject
  some {
    jobId := jobId
    subject := subject
    status := (textField raw "status").getD "completed"
    createdAt := (textField raw "created_at").getD ""
    updatedAt := (textField raw "updated_at").getD ""
    error := textField raw "error"
    result :=
      if (raw.lookup (.str "result")).isSome then dictField raw "result"
      else names.result.bind (dictField raw)
    tenantId := textField raw "tenant_id"
    projectId := textField raw "project_id" }

/-! What the record class of each service falls back on. -/

def crawlRecord : Fallbacks where
  jobId := "crawl_id"
  subject := "start_url"
  result := some "report"

def analysisRecord : Fallbacks where
  jobId := "analysis_id"
  subject := "crawl_id"
  result := some "report"

def contentRecord : Fallbacks where
  jobId := "analysis_id"
  subject := "crawl_id"
  result := some "report"

def planRecord : Fallbacks where
  jobId := "plan_id"
  subject := "crawl_id"
  result := some "report"

def comparisonRecord : Fallbacks where
  jobId := "comparison_id"
  subject := "crawl_id"
  result := some "report"

def researchRecord : Fallbacks where
  jobId := "research_id"
  subject := "seed"
  result := some "report"

def checkRecord : Fallbacks where
  jobId := "check_id"
  subject := "target_domain"
  result := some "report"

def documentRecord : Fallbacks where
  jobId := "report_id"
  subject := "workflow_id"
  result := none

/-- An instance of the store, and the documents of the directory it was opened on. -/
structure FileJobStore where
  memory : String → Option JobRecord
  files : String → Option Json

def FileJobStore.opened (files : String → Option Json) : FileJobStore where
  memory _ := none
  files := files

-- `repr` is that of a float, `now` a reading of the clock
variable (repr : Rat → String) (names : Fallbacks) (now : String)

/-- `_read`. What is no object raises in `from_dict`, and what lacks a field is no record. -/
def FileJobStore.read (store : FileJobStore) (jobId : String) : Except Exn (Option JobRecord) :=
  match (store.files jobId).map loads with
  | none => .ok none
  | some (.dict raw) => .ok (fromDict names raw)
  | some _ => .error (.attributeError "object has no attribute 'get'")

/-- The record, and the store that remembers it. -/
def FileJobStore.get (store : FileJobStore) (jobId : String) :
    Except Exn (Option JobRecord × FileJobStore) :=
  match store.memory jobId with
  | some record => .ok (some record, store)
  | none => do
      let found ← store.read names jobId
      .ok (found, { store with memory := Function.update store.memory jobId found })

def FileJobStore.write (store : FileJobStore) (record : JobRecord) : FileJobStore :=
  { store with
    files := Function.update store.files record.jobId (some (dumps repr record.toStorage)) }

/-- `create`: what the service says of the record beside its id and subject is in `record`. -/
def FileJobStore.create (store : FileJobStore) (record : JobRecord) : FileJobStore :=
  { store with
    memory := Function.update store.memory record.jobId (some record) }.write repr record

/-- `complete`: the record is changed where it is held, and written to its file. -/
def FileJobStore.complete (store : FileJobStore) (jobId : String) (result : PyDict) :
    Except Exn (JobRecord × FileJobStore) := do
  let (found, store) ← store.get names jobId
  match found with
  | none => .error (.keyError jobId)
  | some record =>
      let changed := { record with
        status := "completed"
        result := some result
        error := none
        updatedAt := now }
      .ok (changed,
        { store with
          memory := Function.update store.memory jobId (some changed) }.write repr changed)

end Records

section Rereading

variable {repr : Rat → String} {names : Fallbacks} {now : String}

/-- The fields of a record, as they are read from its file. -/
def storedFields (repr : Rat → String) (record : JobRecord) (result : PyDict) : PyDict :=
  [(.str "job_id", .str record.jobId),
   (.str "subject", .str record.subject),
   (.str "status", .str record.status),
   (.str "created_at", .str record.createdAt),
   (.str "updated_at", .str record.updatedAt),
   (.str "error", optionalText record.error),
   (.str "result", loads (dumps repr (.dict result))),
   (.str "tenant_id", optionalText record.tenantId),
   (.str "project_id", optionalText record.projectId)]

theorem keys_storedFields (record : JobRecord) (result : PyDict) :
    (storedFields repr record result).map Prod.fst = storedNames.map Key.str := rfl

theorem loads_optionalText (text : Option String) :
    loads (dumps repr (optionalText text)) = optionalText text := by
  cases text <;> rfl

theorem loads_toStorage {record : JobRecord} {result : PyDict} (h : record.result = some result) :
    loads (dumps repr record.toStorage) = .dict (storedFields repr record result) := by
  have hkeys : ((storedFields repr record result).map Prod.fst).Nodup := by
    rw [keys_storedFields]
    decide
  have hfields : loads (dumps repr record.toStorage) =
      .dict (Dictionary.ofPairs (storedFields repr record result)).entries := by
    unfold JobRecord.toStorage storedFields
    rw [h]
    simp only [dumps, dumpsEntries, loads, loadsFields, Key.text, Option.map_some,
      Option.getD_some, loads_optionalText]
  rw [hfields, Dictionary.entries_ofPairs hkeys]

theorem textField_optionalText {raw : PyDict} {name : String} {text : Option String}
    (h : raw.lookup (.str name) = some (optionalText text)) : textField raw name = text := by
  unfold textField
  rw [h]
  cases text <;> rfl

theorem textField_eq_none {raw : PyDict} {name : String}
    (h : Key.str name ∉ raw.map Prod.fst) : textField raw name = none := by
  have hlookup : raw.lookup (.str name) = none := by
    rw [List.lookup_eq_none_iff]
    intro entry hentry
    rw [bne_iff_ne]
    rintro heq
    exact h (List.mem_map.mpr ⟨entry, hentry, heq.symm⟩)
  unfold textField
  rw [hlookup]

/-- A name that no field has is of no use where the field is empty. -/
theorem textOr_eq {raw : PyDict} {name other s : String}
    (h : textField raw name = some s) (hother : Key.str other ∉ raw.map Prod.fst) :
    textOr raw name other = if s = "" then none else some s := by
  unfold textOr
  rw [h, textField_eq_none hother]

theorem notMem_keys_storedFields {name : String} (h : name ∉ storedNames) (record : JobRecord)
    (result : PyDict) : Key.str name ∉ (storedFields repr record result).map Prod.fst := by
  rw [keys_storedFields, List.mem_map]
  rintro ⟨stored, hstored, heq⟩
  exact h (Key.str.inj heq ▸ hstored)

/-- What the record reads as from its file. -/
theorem fromDict_storedFields (record : JobRecord) (result entries : PyDict)
    (hentries : loads (dumps repr (.dict result)) = .dict entries) :
    fromDict names (storedFields repr record result) =
      if record.jobId = "" ∨ record.subject = "" then none
      else some { record with result := some entries } := by
  have hidField : textField (storedFields repr record result) "job_id" = some record.jobId := rfl
  have hid := textOr_eq hidField (notMem_keys_storedFields names.jobId_fresh record result)
  have hsubjectField :
      textField (storedFields repr record result) "subject" = some record.subject := rfl
  have hsubject :=
    textOr_eq hsubjectField (notMem_keys_storedFields names.subject_fresh record result)
  have herror : textField (storedFields repr record result) "error" = record.error :=
    textField_optionalText rfl
  have htenant : textField (storedFields repr record result) "tenant_id" = record.tenantId :=
    textField_optionalText rfl
  have hproject : textField (storedFields repr record result) "project_id" = record.projectId :=
    textField_optionalText rfl
  have hresult : dictField (storedFields repr record result) "result" = some entries := by
    unfold dictField
    rw [show (storedFields repr record result).lookup (.str "result") =
      some (loads (dumps repr (.dict result))) from rfl, hentries]
  unfold fromDict
  rw [hid, hsubject, herror, htenant, hproject, hresult]
  by_cases hjob : record.jobId = ""
  · rw [if_pos hjob, if_pos (Or.inl hjob)]
    rfl
  · by_cases hempty : record.subject = ""
    · rw [if_neg hjob, if_pos hempty, if_pos (Or.inr hempty)]
      rfl
    · rw [if_neg hjob, if_neg hempty, if_neg (not_or.mpr ⟨hjob, hempty⟩)]
      rfl

/-- A record that was completed is held in memory, and reads the same from its file exactly
when its id and subject are not empty and its result has only texts as keys and no tuples. -/
theorem reread_iff {store : FileJobStore} {jobId : String} {result : PyDict}
    (hdistinct : Distinct (.dict result)) {record : JobRecord} {after : FileJobStore}
    (h : store.complete repr names now jobId result = .ok (record, after)) :
    after.memory jobId = some record ∧
      ((FileJobStore.opened after.files).read names record.jobId = .ok (some record) ↔
        record.jobId ≠ "" ∧ record.subject ≠ "" ∧ Plain (.dict result)) := by
  unfold FileJobStore.complete at h
  obtain ⟨⟨found, held⟩, hfound, h⟩ := ok_of_bind h
  cases found with
  | none => cases h
  | some old =>
      obtain ⟨hrecord, hafter⟩ := Prod.mk.inj (Except.ok.inj h)
      have hresult : record.result = some result := by rw [← hrecord]
      have hfile : after.files record.jobId = some (dumps repr record.toStorage) := by
        rw [← hafter, ← hrecord]
        exact Function.update_self ..
      refine ⟨?_, ?_⟩
      · rw [← hafter, ← hrecord]
        exact Function.update_self ..
      · have hround : loads (dumps repr (.dict result)) = .dict result ↔ Plain (.dict result) :=
          loads_dumps_iff _ hdistinct
        obtain ⟨entries, hentries⟩ :
            ∃ entries, loads (dumps repr (.dict result)) = .dict entries := ⟨_, rfl⟩
        have hread : (FileJobStore.opened after.files).read names record.jobId =
            .ok (fromDict names (storedFields repr record result)) := by
          unfold FileJobStore.read FileJobStore.opened
          rw [hfile, Option.map_some, loads_toStorage hresult]
        rw [hread, fromDict_storedFields record result entries hentries, ← hround, hentries,
          Except.ok.injEq, Value.dict.injEq]
        by_cases hempty : record.jobId = "" ∨ record.subject = ""
        · rw [if_pos hempty]
          refine iff_of_false nofun ?_
          rintro ⟨hjob, hsubject, -⟩
          exact hempty.elim hjob hsubject
        · rw [if_neg hempty, Option.some.injEq]
          obtain ⟨hjob, hsubject⟩ := not_or.mp hempty
          rw [and_iff_right hjob, and_iff_right hsubject]
          constructor
          · intro hsame
            have hfield := congrArg JobRecord.result hsame
            rw [hresult] at hfield
            exact Option.some.inj hfield
          · rintro rfl
            rw [← hresult]

end Rereading

end SeoPlatform.Shared.Restarts
