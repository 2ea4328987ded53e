import SeoPlatform.Shared.Netguard

namespace SeoPlatform.Security.MetadataRefusal

open SeoPlatform.Foundation.IpAddress
open SeoPlatform.Foundation.UrlText
open SeoPlatform.Shared.Exceptions
open SeoPlatform.Shared.Netguard

/-- The addresses of the metadata services. -/
def metadataAddresses : List (BitVec 32) := [ipv4 169 254 169 254, ipv4 100 100 100 200]

/-- One of them, also inside an address of version 6. -/
def isMetadata : Address → Bool
  | .v4 bits => metadataAddresses.contains bits
  | .v6 bits => (ipv4Mapped bits).any metadataAddresses.contains

/-- What the host of a url resolves to when it is checked. -/
def addressesOf (env : Surroundings) (url : String) : List Resolved :=
  match target env.rules url with
  | .error _ => []
  | .ok host =>
      match env.resolver host with
      | .found addresses => addresses
      | .gaierror _ | .raised _ => []

/-- An address that must not be reached: a metadata address under any setting,
one of the internal ranges unless they are allowed. -/
def Forbidden (env : Surroundings) (address : Resolved) : Prop :=
  address.ip.any isMetadata = true ∨
    allowPrivate env.rules env.setting = false ∧ isBlockedIp address = true

/-- No url is accepted that leads to a forbidden address. -/
def Refuses (env : Surroundings) (cache : Cache) (url : String) : Prop :=
  accepts env cache url = true → ∀ address ∈ addressesOf env url, ¬ Forbidden env address

/-- The metadata address that `ipaddress` puts into no internal range. -/
def isShared (address : Resolved) : Bool := address.ip = some (.v4 (ipv4 100 100 100 200))

/-- Where `check_url` keeps its callers away: a url that is refused as it is
written; a host without metadata addresses where internal addresses are allowed;
and elsewhere a host with a blocked address in the answer that is judged, or
with none that slips through. -/
def Protected (env : Surroundings) (cache : Cache) (url : String) : Prop :=
  match target env.rules url with
  | .error _ => True
  | .ok host =>
      if allowPrivate env.rules env.setting then
        -- nothing is resolved
        ∀ address ∈ addressesOf env url, address.ip.any isMetadata = false
      else
        match cache.lookup host with
        | some held =>
            -- an old answer is judged
            (∃ address ∈ held, isBlockedIp address = true) ∨
              ∀ address ∈ addressesOf env url,
                isShared address = false ∧ isBlockedIp address = false
        | none =>
            (∃ address ∈ addressesOf env url, isBlockedIp address = true) ∨
              ∀ address ∈ addressesOf env url, isShared address = false

theorem isBlockedIp_linkLocal (address : Resolved)
    (h : address.ip = some (.v4 (ipv4 169 254 169 254))) : isBlockedIp address = true := by
  unfold isBlockedIp
  rw [h]
  decide

/-- An address of version 4 inside one of version 6 is in a reserved range. -/
theorem isReserved_of_mapped {bits : BitVec 128} {inner : BitVec 32}
    (h : ipv4Mapped bits = some inner) : isReserved (.v6 bits) = true := by
  have hgroup : bits.toNat / 2 ^ 32 = 0xffff := by
    unfold ipv4Mapped at h
    split at h
    · assumption
    · contradiction
  have hleading : bits.toNat / 2 ^ 120 = 0 := by
    apply Nat.div_eq_of_lt
    omega
  have hnetwork : Network.contains ⟨ipv6 [], 8⟩ bits = true := by
    have hzero : (ipv6 []).toNat / 2 ^ 120 = 0 := by decide
    exact decide_eq_true (hleading.trans hzero.symm)
  show within reservedV6 bits = true
  simp [within, reservedV6, hnetwork]

/-- Of the metadata addresses only the shared one is in no internal range. -/
theorem isBlockedIp_of_isMetadata {address : Resolved} (h : address.ip.any isMetadata = true) :
    isBlockedIp address = true ∨ isShared address = true := by
  obtain ⟨ip, hip, hmetadata⟩ := (Option.any_eq_true _ _).mp h
  cases ip with
  | v4 bits =>
      have hbits : bits = ipv4 169 254 169 254 ∨ bits = ipv4 100 100 100 200 := by
        simpa [isMetadata, metadataAddresses] using hmetadata
      rcases hbits with rfl | rfl
      · exact .inl (isBlockedIp_linkLocal address hip)
      · exact .inr (by simp [isShared, hip])
  | v6 bits =>
      obtain ⟨inner, hinner, -⟩ := (Option.any_eq_true _ _).mp hmetadata
      left
      unfold isBlockedIp
      rw [hip]
      simp [isReserved_of_mapped hinner]

theorem isMetadata_of_isShared {address : Resolved} (h : isShared address = true) :
    address.ip.any isMetadata = true := by
  have hip : address.ip = some (.v4 (ipv4 100 100 100 200)) := of_decide_eq_true h
  rw [hip]
  decide

/-- With the internal ranges forbidden, only the shared address is added to them. -/
theorem not_forbidden_iff {env : Surroundings} {address : Resolved}
    (hsetting : allowPrivate env.rules env.setting = false) :
    ¬ Forbidden env address ↔ isShared address = false ∧ isBlockedIp address = false := by
  unfold Forbidden
  rw [hsetting]
  constructor
  · intro h
    constructor
    · apply Bool.eq_false_iff.mpr
      intro hshared
      exact h (.inl (isMetadata_of_isShared hshared))
    · apply Bool.eq_false_iff.mpr
      intro hblocked
      exact h (.inr ⟨rfl, hblocked⟩)
  · rintro ⟨hshared, hblocked⟩ (hmetadata | ⟨-, hinternal⟩)
    · rcases isBlockedIp_of_isMetadata hmetadata with h | h
      · rw [h] at hblocked
        contradiction
      · rw [h] at hshared
        contradiction
    · rw [hinternal] at hblocked
      contradiction

section Checks

variable {env : Surroundings} {cache : Cache} {url host : String}

theorem accepts_error {e : Exn} (h : target env.rules url = .error e) :
    accepts env cache url = false := by
  unfold accepts checkUrl
  rw [h]
  rfl

theorem accepts_allowed (h : target env.rules url = .ok host)
    (hsetting : allowPrivate env.rules env.setting = true) : accepts env cache url = true := by
  unfold accepts checkUrl
  rw [h]
  simp only [hsetting, if_true]
  rfl

/-- Where an answer is held, that answer is judged. -/
theorem accepts_held (h : target env.rules url = .ok host)
    (hsetting : allowPrivate env.rules env.setting = false) {held : List Resolved}
    (hheld : cache.lookup host = some held) :
    accepts env cache url = true ↔ ∀ address ∈ held, isBlockedIp address = false := by
  unfold accepts checkUrl resolve
  rw [h]
  simp only [hsetting, hheld]
  exact checkAddresses_isOk

/-- Where none is held, the resolver's answer is judged. -/
theorem accepts_fresh (h : target env.rules url = .ok host)
    (hsetting : allowPrivate env.rules env.setting = false)
    (hheld : cache.lookup host = none) :
    accepts env cache url = true →
      ∀ address ∈ addressesOf env url, isBlockedIp address = false := by
  unfold accepts checkUrl resolve addressesOf
  rw [h]
  simp only [hsetting, hheld]
  intro haccepts
  cases hresolver : env.resolver host with
  | found addresses =>
      simp only [hresolver] at haccepts
      have hall := checkAddresses_isOk.mp haccepts
      intro address hmem
      exact hall address (List.mem_eraseDups.mpr hmem)
  | gaierror reason =>
      intro address hmem
      contradiction
  | raised e =>
      intro address hmem
      contradiction

theorem accepts_of_fresh (h : target env.rules url = .ok host)
    (hsetting : allowPrivate env.rules env.setting = false)
    (hheld : cache.lookup host = none) (hsome : addressesOf env url ≠ [])
    (hall : ∀ address ∈ addressesOf env url, isBlockedIp address = false) :
    accepts env cache url = true := by
  unfold addressesOf at hsome hall
  unfold accepts checkUrl resolve
  rw [h] at hsome hall ⊢
  simp only [hsetting, hheld]
  cases hresolver : env.resolver host with
  | found addresses =>
      simp only [hresolver] at hall ⊢
      apply checkAddresses_isOk.mpr
      intro address hmem
      exact hall address (List.mem_eraseDups.mp hmem)
  | gaierror reason =>
      simp only [hresolver] at hsome
      contradiction
  | raised e =>
      simp only [hresolver] at hsome
      contradiction

/-- Where the internal ranges are allowed, every url is accepted. -/
theorem refuses_allowed (h : target env.rules url = .ok host)
    (hsetting : allowPrivate env.rules env.setting = true) :
    Refuses env cache url ↔
      ∀ address ∈ addressesOf env url, address.ip.any isMetadata = false := by
  have hforbidden : ∀ address, ¬ Forbidden env address ↔
      address.ip.any isMetadata = false := by
    intro address
    simp [Forbidden, hsetting]
  constructor
  · intro hrefuses address hmem
    exact (hforbidden address).mp (hrefuses (accepts_allowed h hsetting) address hmem)
  · intro hfree _ address hmem
    exact (hforbidden address).mpr (hfree address hmem)

theorem forall_not_blocked {addresses : List Resolved}
    (h : ¬ ∃ address ∈ addresses, isBlockedIp address = true) :
    ∀ address ∈ addresses, isBlockedIp address = false :=
  fun address hmem => Bool.eq_false_iff.mpr fun hblocked => h ⟨address, hmem, hblocked⟩

theorem refuses_held (h : target env.rules url = .ok host)
    (hsetting : allowPrivate env.rules env.setting = false) {held : List Resolved}
    (hheld : cache.lookup host = some held) :
    Refuses env cache url ↔ (∃ address ∈ held, isBlockedIp address = true) ∨
      ∀ address ∈ addressesOf env url,
        isShared address = false ∧ isBlockedIp address = false := by
  have haccepts := accepts_held h hsetting hheld
  constructor
  · intro hrefuses
    by_cases hblocked : ∃ address ∈ held, isBlockedIp address = true
    · exact .inl hblocked
    · right
      intro address hmem
      apply (not_forbidden_iff hsetting).mp
      exact hrefuses (haccepts.mpr (forall_not_blocked hblocked)) address hmem
  · rintro (⟨address, hmem, hblocked⟩ | hfree) haccepted
    · rw [haccepts.mp haccepted address hmem] at hblocked
      contradiction
    · intro address hmem
      exact (not_forbidden_iff hsetting).mpr (hfree address hmem)

theorem refuses_fresh (h : target env.rules url = .ok host)
    (hsetting : allowPrivate env.rules env.setting = false)
    (hheld : cache.lookup host = none) :
    Refuses env cache url ↔
      (∃ address ∈ addressesOf env url, isBlockedIp address = true) ∨
        ∀ address ∈ addressesOf env url, isShared address = false := by
  constructor
  · intro hrefuses
    by_cases hblocked : ∃ address ∈ addressesOf env url, isBlockedIp address = true
    · exact .inl hblocked
    · right
      intro address hmem
      have haccepted := accepts_of_fresh h hsetting hheld (List.ne_nil_of_mem hmem)
        (forall_not_blocked hblocked)
      exact ((not_forbidden_iff hsetting).mp (hrefuses haccepted address hmem)).1
  · rintro (⟨address, hmem, hblocked⟩ | hfree) haccepted
    · rw [accepts_fresh h hsetting hheld haccepted address hmem] at hblocked
      contradiction
    · intro address hmem
      apply (not_forbidden_iff hsetting).mpr
      exact ⟨hfree address hmem, accepts_fresh h hsetting hheld haccepted address hmem⟩

end Checks

/-- `check_url` keeps every caller away from forbidden addresses exactly where
the url, the setting, the held answers and the resolver are as `Protected` says. -/
theorem refuses_iff (env : Surroundings) (cache : Cache) (url : String) :
    Refuses env cache url ↔ Protected env cache url := by
  unfold Protected
  cases htarget : target env.rules url with
  | error e =>
      refine iff_of_true ?_ trivial
      intro haccepts
      rw [accepts_error htarget] at haccepts
      contradiction
  | ok host =>
      dsimp only
      by_cases hsetting : allowPrivate env.rules env.setting = true
      · rw [if_pos hsetting]
        exact refuses_allowed htarget hsetting
      · rw [if_neg hsetting]
        have hoff := Bool.eq_false_iff.mpr hsetting
        cases hheld : cache.lookup host with
        | some held => exact refuses_held htarget hoff hheld
        | none => exact refuses_fresh htarget hoff hheld

/-- Tables that agree with the runtime's on plain addresses. -/
def asciiRules : TextRules where
  lower := String.map Char.toLower
  casefold := String.map Char.toLower
  netlocFault _ := none

/-- Audits of the own network are allowed, and a name leads to the metadata
service. -/
def sneaky : Surroundings where
  rules := asciiRules
  setting := some "1"
  resolver host :=
    if host = "sneaky.example.com" then
      .found [⟨"169.254.169.254", some (.v4 (ipv4 169 254 169 254))⟩]
    else .gaierror "Name or service not known"

theorem metadata_accepted :
    accepts sneaky [] "http://sneaky.example.com/" = true ∧
      (addressesOf sneaky "http://sneaky.example.com/").map (·.ip) =
        [some (.v4 (ipv4 169 254 169 254))] ∧
      ¬ Refuses sneaky [] "http://sneaky.example.com/" := by
  have haccepts : accepts sneaky [] "http://sneaky.example.com/" = true := by decide +kernel
  have haddresses : addressesOf sneaky "http://sneaky.example.com/" =
      [⟨"169.254.169.254", some (.v4 (ipv4 169 254 169 254))⟩] := by decide +kernel
  refine ⟨haccepts, by rw [haddresses]; rfl, ?_⟩
  intro h
  refine h haccepts _ (by rw [haddresses]; exact List.mem_singleton_self _) (.inl ?_)
  decide

end SeoPlatform.Security.MetadataRefusal
