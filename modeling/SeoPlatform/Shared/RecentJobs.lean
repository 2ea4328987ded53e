import Mathlib.Data.List.Sort
import SeoPlatform.Shared.Jobs

namespace SeoPlatform.Shared.RecentJobs

open SeoPlatform.Shared.Jobs

section Listing

/-- A file of a store's directory, and the record it reads as. One that cannot be read has
none. -/
structure JobFile where
  stem : String
  modified : Nat
  record : Option JobRecord

def newestFirst (files : List JobFile) : List JobFile :=
  files.insertionSort fun f g => g.modified ≤ f.modified

def window (limit : Nat) (tenantId : Option String) : Nat :=
  if tenantId.getD "" ≠ "" then limit * 20 else limit

/-- `FileJobStore.recent` on a directory that can be written. -/
def recent (files : List JobFile) (limit : Nat) (tenantId : Option String) : List JobRecord :=
  let found := ((newestFirst files).take (window limit tenantId)).map JobFile.record
  (found.filterMap fun record => owned record tenantId).take limit

/-- The readable records of a tenant, the ones that were written last first. -/
def ownRecords (files : List JobFile) (tenantId : Option String) : List JobRecord :=
  (newestFirst files).filterMap fun file => owned file.record tenantId

/-- How many of them are among the files that are read. -/
def ownInWindow (files : List JobFile) (limit : Nat) (tenantId : Option String) : Nat :=
  ((newestFirst files).take (window limit tenantId)).countP fun file =>
    (owned file.record tenantId).isSome

end Listing

section Windows

variable {α β : Type}

theorem filterMap_take_append (f : α → Option β) (items : List α) (n : Nat) :
    (items.take n).filterMap f ++ (items.drop n).filterMap f = items.filterMap f := by
  rw [← List.filterMap_append, List.take_append_drop]

/-- What is found behind a window is missed, unless enough was found in it. -/
theorem take_append_eq_iff {found behind : List α} {limit : Nat} :
    found.take limit = (found ++ behind).take limit ↔ limit ≤ found.length ∨ behind = [] := by
  constructor
  · intro h
    by_contra hmissed
    obtain ⟨hfew, hsome⟩ := not_or.mp hmissed
    have hlength := congrArg List.length h
    have hpos := List.length_pos_of_ne_nil hsome
    simp only [List.length_take, List.length_append] at hlength
    omega
  · rintro (hmany | rfl)
    · rw [List.take_append_of_le_length hmany]
    · rw [List.append_nil]

/-- Two beginnings of one list are the same where they are as long. -/
theorem take_eq_take_iff {found found' whole : List α} (h : found <+: whole)
    (h' : found' <+: whole) {limit : Nat} :
    found.take limit = found'.take limit ↔ min limit found.length = min limit found'.length := by
  rw [List.prefix_iff_eq_take.mp h, List.prefix_iff_eq_take.mp h', List.take_take,
    List.take_take]
  constructor
  · intro hsame
    have hlength := congrArg List.length hsame
    have hle := h.length_le
    have hle' := h'.length_le
    simp only [List.length_take] at hlength ⊢
    omega
  · intro hsame
    have hle := h.length_le
    have hle' := h'.length_le
    rw [List.length_take_of_le hle, List.length_take_of_le hle'] at hsame
    rw [hsame]

end Windows

section Tenants

theorem found_eq (files : List JobFile) (limit : Nat) (tenantId : Option String) :
    recent files limit tenantId =
      (((newestFirst files).take (window limit tenantId)).filterMap
        fun file => owned file.record tenantId).take limit := by
  unfold recent
  dsimp only
  rw [List.filterMap_map]
  rfl

theorem length_found (files : List JobFile) (limit : Nat) (tenantId : Option String) :
    (((newestFirst files).take (window limit tenantId)).filterMap
      fun file => owned file.record tenantId).length = ownInWindow files limit tenantId :=
  List.length_filterMap_eq_countP ..

/-- The list of a tenant is complete exactly when enough of its records are among the files
that are read, or none is behind them. On two directories where its records are the same,
it gets the same list exactly when as many of them are among the files that are read. -/
theorem recent_complete_iff (files : List JobFile) (limit : Nat) (tenantId : Option String) :
    (recent files limit tenantId = (ownRecords files tenantId).take limit ↔
      limit ≤ ownInWindow files limit tenantId ∨
        ∀ file ∈ (newestFirst files).drop (window limit tenantId),
          owned file.record tenantId = none) ∧
    ∀ files', ownRecords files' tenantId = ownRecords files tenantId →
      (recent files limit tenantId = recent files' limit tenantId ↔
        min limit (ownInWindow files limit tenantId) =
          min limit (ownInWindow files' limit tenantId)) := by
  constructor
  · rw [found_eq, ← length_found]
    unfold ownRecords
    rw [← filterMap_take_append _ (newestFirst files) (window limit tenantId),
      take_append_eq_iff, List.filterMap_eq_nil_iff]
  · intro files' hsame
    have hfound : ((newestFirst files).take (window limit tenantId)).filterMap
        (fun file => owned file.record tenantId) <+: ownRecords files tenantId :=
      ⟨_, filterMap_take_append ..⟩
    have hfound' : ((newestFirst files').take (window limit tenantId)).filterMap
        (fun file => owned file.record tenantId) <+: ownRecords files tenantId := by
      rw [← hsame]
      exact ⟨_, filterMap_take_append ..⟩
    rw [found_eq, found_eq, ← length_found, ← length_found]
    exact take_eq_take_iff hfound hfound'

def fileOf (tenantId : String) (modified : Nat) : JobFile where
  stem := tenantId ++ toString modified
  modified := modified
  record := some
    { jobId := tenantId ++ toString modified
      subject := "https://a.ir/"
      createdAt := modified
      updatedAt := modified
      tenantId := some tenantId }

/-- A record of one tenant, and twenty newer ones of another. -/
def crowded : List JobFile := fileOf "a" 0 :: (List.range 20).map fun n => fileOf "b" (n + 1)

theorem not_complete_crowded :
    recent crowded 1 (some "a") ≠ (ownRecords crowded (some "a")).take 1 := by
  have hrecent : (recent crowded 1 (some "a")).length = 0 := by decide +kernel
  have hown : ((ownRecords crowded (some "a")).take 1).length = 1 := by decide +kernel
  intro h
  rw [h, hown] at hrecent
  cases hrecent

end Tenants

end SeoPlatform.Shared.RecentJobs
