import Mathlib.Logic.Function.Basic
import SeoPlatform.Shared.Jobs

namespace SeoPlatform.Shared.FileStore

open SeoPlatform.Shared.Exceptions
open SeoPlatform.Shared.Jobs

/-- Records by their job ids: the memory of an instance, or the files of a
writable directory. -/
abbrev Records := String → Option JobRecord

/-- An instance of the store, and the directory it was opened on. -/
structure FileJobStore where
  memory : Records
  files : Records

def FileJobStore.opened (files : Records) : FileJobStore where
  memory _ := none
  files := files

/-- The record in memory, and then in its file. -/
def FileJobStore.write (store : FileJobStore) (record : JobRecord) : FileJobStore where
  memory := Function.update store.memory record.jobId (some record)
  files := Function.update store.files record.jobId (some record)

def FileJobStore.create (store : FileJobStore) (job : NewJob) (now : Nat) :
    JobRecord × FileJobStore :=
  (job.record now, store.write (job.record now))

/-- Memory first; a record that is only in its file is remembered. -/
def FileJobStore.find (store : FileJobStore) (jobId : String) : Option JobRecord :=
  (store.memory jobId).or (store.files jobId)

def FileJobStore.remember (store : FileJobStore) (jobId : String) : FileJobStore :=
  { store with memory := Function.update store.memory jobId (store.find jobId) }

def FileJobStore.get (store : FileJobStore) (jobId : String) (tenantId : Option String) :
    Option JobRecord × FileJobStore :=
  (owned (store.find jobId) tenantId, store.remember jobId)

def FileJobStore.update (store : FileJobStore) (jobId : String) (changes : Changes) (now : Nat) :
    Except Exn JobRecord × FileJobStore :=
  match store.find jobId with
  | none => (.error (.keyError jobId), store.remember jobId)
  | some record =>
      (.ok (record.changed changes now), (store.remember jobId).write (record.changed changes now))

def FileJobStore.markRunning (store : FileJobStore) (jobId : String) (now : Nat) :
    Except Exn JobRecord × FileJobStore :=
  store.update jobId .running now

def FileJobStore.complete (store : FileJobStore) (jobId : String)
    (result : SeoPlatform.Foundation.JsonValue.Dict) (now : Nat) :
    Except Exn JobRecord × FileJobStore :=
  store.update jobId (.complete result) now

def FileJobStore.fail (store : FileJobStore) (jobId error : String) (now : Nat) :
    Except Exn JobRecord × FileJobStore :=
  store.update jobId (.fail error) now

section Records

variable {store : FileJobStore} {jobId : String} {record : JobRecord}

@[simp] theorem memory_write (other : String) :
    (store.write record).memory other =
      if other = record.jobId then some record else store.memory other := by
  simp [FileJobStore.write, Function.update_apply]

@[simp] theorem files_write (other : String) :
    (store.write record).files other =
      if other = record.jobId then some record else store.files other := by
  simp [FileJobStore.write, Function.update_apply]

@[simp] theorem memory_remember (other : String) :
    (store.remember jobId).memory other =
      if other = jobId then store.find jobId else store.memory other := by
  simp [FileJobStore.remember, Function.update_apply]

@[simp] theorem files_remember : (store.remember jobId).files = store.files := rfl

/-- Each record is kept under its own job id. -/
def Labelled (records : Records) : Prop :=
  ∀ jobId record, records jobId = some record → record.jobId = jobId

theorem jobId_of_find (hmemory : Labelled store.memory) (hfiles : Labelled store.files)
    (h : store.find jobId = some record) : record.jobId = jobId := by
  rcases Option.or_eq_some_iff.mp h with hheld | ⟨-, hfile⟩
  · exact hmemory jobId record hheld
  · exact hfiles jobId record hfile

@[simp] theorem find_write (other : String) :
    (store.write record).find other =
      if other = record.jobId then some record else store.find other := by
  unfold FileJobStore.find
  rw [memory_write, files_write]
  split <;> rfl

@[simp] theorem find_remember (other : String) :
    (store.remember jobId).find other = store.find other := by
  show ((store.remember jobId).memory other).or (store.files other) = _
  rw [memory_remember]
  split
  · rename_i heq
    rw [heq, FileJobStore.find, Option.or_assoc, Option.or_self]
  · rfl

end Records

end SeoPlatform.Shared.FileStore
