import SeoPlatform.Shared.Exceptions

namespace SeoPlatform.Gateway.ServiceClient

/-- Who is signed in: the tenant of `$request->user()`. -/
structure Principal where
  tenantId : Option String
  deriving DecidableEq, Repr

/-- An id nothing can be owned by. -/
def nobody : String := "00000000-0000-0000-0000-000000000000"

/-- The query parameters that scope a read to one tenant. -/
def scopedTo (tenantId : Option String) : List (String × String) :=
  [("tenant_id", tenantId.getD nobody)]

/-- A project that the caller's tenant owns, or none. -/
def ownedProjectId (ownsProject : Option String → String → Bool) (principal : Principal)
    (projectId : Option String) : Option (Option String) :=
  match projectId with
  | none => some none
  | some "" => some none
  | some id => if ownsProject principal.tenantId id then some (some id) else none

inductive Method where
  | get
  | post
  | delete
  deriving DecidableEq, Repr

/-- What a request carries besides its query. -/
inductive Body (β : Type) where
  | none
  | data (fields : List (String × String))
  | json (b : β)

/-- A request as a service receives it. A path is read segment by segment. -/
structure Request (β : Type) where
  method : Method
  path : List String
  query : List (String × String) := []
  body : Body β := .none

/-- Where the HTTP client puts the data of a DELETE: behind the address, as it
does for a GET, or into the body, as it does for a POST. -/
inductive Placement where
  | query
  | body
  deriving DecidableEq, Repr

variable {β : Type}

def httpGet (path : List String) (data : List (String × String)) : Request β where
  method := .get
  path := path
  query := data

def httpPost (path : List String) (query : List (String × String)) (body : Body β) :
    Request β where
  method := .post
  path := path
  query := query
  body := body

def httpDelete (placement : Placement) (path : List String) (data : List (String × String)) :
    Request β :=
  match placement with
  | .query => { method := .delete, path := path, query := data }
  | .body => { method := .delete, path := path, body := .data data }

/-- What a service answers: a status, and the rows it shows. -/
structure Response (ρ : Type) where
  status : Nat
  shown : List ρ := []

variable {ρ : Type}

/-- `usable`: an outage of a service is 503, and what it refuses unexpectedly is 500. -/
def usable (response : Response ρ) : Response ρ :=
  if 500 ≤ response.status then ⟨503, []⟩
  else if 400 ≤ response.status then ⟨500, []⟩
  else response

/-- An id that is unknown is 404. -/
def usableOr404 (response : Response ρ) : Response ρ :=
  if response.status = 404 then ⟨404, []⟩ else usable response

/-- A request that a service refuses as invalid is 422. -/
def usableOr422 (response : Response ρ) : Response ρ :=
  if response.status = 400 ∨ response.status = 422 then ⟨422, []⟩ else usable response

theorem shown_usable (response : Response ρ) : (usable response).shown ⊆ response.shown := by
  unfold usable
  split
  · exact List.nil_subset _
  · split
    · exact List.nil_subset _
    · exact List.Subset.refl _

theorem shown_usableOr404 (response : Response ρ) :
    (usableOr404 response).shown ⊆ response.shown := by
  unfold usableOr404
  split
  · exact List.nil_subset _
  · exact shown_usable response

theorem shown_usableOr422 (response : Response ρ) :
    (usableOr422 response).shown ⊆ response.shown := by
  unfold usableOr422
  split
  · exact List.nil_subset _
  · exact shown_usable response

end SeoPlatform.Gateway.ServiceClient
