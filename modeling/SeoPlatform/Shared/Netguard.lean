import SeoPlatform.Foundation.IpAddress
import SeoPlatform.Foundation.UrlParse
import SeoPlatform.Shared.Exceptions

namespace SeoPlatform.Shared.Netguard

open SeoPlatform.Foundation.IpAddress
open SeoPlatform.Foundation.UrlText
open SeoPlatform.Foundation.UrlParse
open SeoPlatform.Shared.Exceptions

def metadataHosts : List String :=
  ["169.254.169.254", "metadata.google.internal", "100.100.100.200"]

def allowedSchemes : List String := ["http", "https"]

/-- What the setting of `SEO_AGENT_ALLOW_PRIVATE` says. -/
def allowPrivate (rules : TextRules) (setting : Option String) : Bool :=
  ["1", "true", "yes", "on"].contains (rules.lower (strip (setting.getD "")))

/-- The text of an address, and what `ip_address` reads it as. -/
structure Resolved where
  text : String
  ip : Option Address
  deriving DecidableEq, Repr

def isBlockedIp (address : Resolved) : Bool :=
  match address.ip with
  | none => false
  | some ip =>
      isPrivate ip || isLoopback ip || isLinkLocal ip || isReserved ip || isMulticast ip ||
        isUnspecified ip

/-- What `getaddrinfo` does with a host. -/
inductive Resolution where
  | found (addresses : List Resolved)
  | gaierror (reason : String)
  | raised (e : Exn)

abbrev Resolver := String → Resolution

/-- The answers that `lru_cache` holds, the last used one first. -/
abbrev Cache := List (String × List Resolved)

def maxsize : Nat := 2048

def resolve (resolver : Resolver) (cache : Cache) (host : String) :
    Except Exn (List Resolved) × Cache :=
  match cache.lookup host with
  | some addresses => (.ok addresses, (host, addresses) :: cache.filter fun entry => entry.1 ≠ host)
  | none =>
      match resolver host with
      | .found addresses =>
          (.ok addresses.eraseDups, ((host, addresses.eraseDups) :: cache).take maxsize)
      | .gaierror reason =>
          (.error (.targetNotAllowed
            ("نام دامنه «" ++ host ++ "» قابل تبدیل به آی‌پی نیست: " ++ reason)), cache)
      | .raised e => (.error e, cache)

/-- A listed host, or one of the `.internal` names. -/
def namesMetadata (rules : TextRules) (host : String) : Bool :=
  metadataHosts.contains (rules.lower host) ||
    ".internal".toList.isSuffixOf (rules.lower host).toList

/-- The host that `check_url` looks at, unless it refuses the url as it is
written. -/
def target (rules : TextRules) (url : String) : Except Exn String := do
  let parsed ← (urlparse rules url "").mapError .valueError
  if !allowedSchemes.contains parsed.scheme then
    .error (.targetNotAllowed ("فقط http و https پشتیبانی می‌شوند (دریافت شد: «" ++
      (if parsed.scheme = "" then "—" else parsed.scheme) ++ "»)"))
  else
    let host := hostname rules parsed.netloc.toList
    if host = "" then .error (.targetNotAllowed "آدرس میزبان ندارد.")
    else if namesMetadata rules host then
      .error (.targetNotAllowed ("آدرس «" ++ host ++
        "» به سرویس metadata سرور اشاره می‌کند و در هیچ حالتی مجاز نیست."))
    else .ok host

/-- Refuse a host for the first blocked one of its addresses. -/
def checkAddresses (host : String) (addresses : List Resolved) : Except Exn Unit :=
  match addresses.find? isBlockedIp with
  | none => .ok ()
  | some address =>
      .error (.targetNotAllowed ("آدرس «" ++ host ++ "» به " ++ address.text ++
        " در شبکه‌ی داخلی اشاره می‌کند و مجاز نیست. " ++
        "اگر واقعاً می‌خواهی یک سایت لوکال را بررسی کنی، " ++
        "متغیر SEO_AGENT_ALLOW_PRIVATE=1 را تنظیم کن."))

/-- What a check goes by: the setting, the resolver, and the tables of the
runtime. -/
structure Surroundings where
  rules : TextRules
  setting : Option String
  resolver : Resolver

def checkUrl (env : Surroundings) (cache : Cache) (url : String) : Except Exn Unit × Cache :=
  match target env.rules url with
  | .error e => (.error e, cache)
  | .ok host =>
      if allowPrivate env.rules env.setting then (.ok (), cache)
      else
        match resolve env.resolver cache host with
        | (.error e, after) => (.error e, after)
        | (.ok addresses, after) => (checkAddresses host addresses, after)

def accepts (env : Surroundings) (cache : Cache) (url : String) : Bool :=
  (checkUrl env cache url).1.isOk

theorem checkAddresses_isOk {host : String} {addresses : List Resolved} :
    (checkAddresses host addresses).isOk = true ↔
      ∀ address ∈ addresses, isBlockedIp address = false := by
  unfold checkAddresses
  cases hfind : addresses.find? isBlockedIp with
  | none => simpa [Except.isOk, Except.toBool] using hfind
  | some address =>
      have hmem := List.mem_of_find?_eq_some hfind
      have hblocked := List.find?_some hfind
      simp only [Except.isOk, Except.toBool]
      constructor
      · intro h
        contradiction
      · intro h
        rw [h address hmem] at hblocked
        contradiction

end SeoPlatform.Shared.Netguard
