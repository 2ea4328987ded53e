import SeoPlatform.Shared.Netguard

namespace SeoPlatform.Shared.Outbound

open SeoPlatform.Shared.Exceptions
open SeoPlatform.Shared.Netguard

inductive Event where
  | checked (url : String) (accepted : Bool)
  | requested (url : String)
  deriving DecidableEq, Repr

/-- A process as the network sees it: the answers its guard holds, and all it
checked and requested so far. -/
structure Wire where
  cache : Cache
  trace : List Event

def check (env : Surroundings) (wire : Wire) (url : String) : Except Exn Unit × Wire :=
  let (answer, cache) := checkUrl env wire.cache url
  (answer, { cache := cache, trace := wire.trace ++ [.checked url answer.isOk] })

/-- The bytes read of a body, and the text they decode to. -/
structure Body where
  size : Nat
  text : String

/-- A response. The names of its headers are in lower case, and reading its body
may fail. -/
structure Response where
  status : Nat
  headers : List (String × String)
  body : Except String Body

def Response.header (response : Response) (name : String) : String :=
  (response.headers.lookup name).getD ""

inductive Ending where
  | response (response : Response)
  | tooManyRedirects (text : String)
  | timeout (className text : String)
  | requestException (className text : String)

/-- What comes of handing a url to the library: whether a request leaves at all,
the redirects that servers answer with and the library follows by itself, each
with its status and the url it leads to, and the end. -/
structure Exchange where
  sent : Bool := true
  hops : List (Nat × String) := []
  ending : Ending
  elapsedMs : Nat := 0

def Exchange.redirects (exchange : Exchange) : List String :=
  if exchange.sent then exchange.hops.map Prod.snd else []

def Exchange.requests (exchange : Exchange) (url : String) : List String :=
  if exchange.sent then url :: exchange.redirects else []

/-- `history`: each redirect, with the url that answered with it. -/
def Exchange.history (exchange : Exchange) (url : String) : List (Nat × String) :=
  (exchange.hops.map Prod.fst).zip (url :: exchange.hops.map Prod.snd)

def Exchange.finalUrl (exchange : Exchange) (url : String) : String :=
  (exchange.hops.getLast?.map Prod.snd).getD url

def request (wire : Wire) (url : String) (exchange : Exchange) : Wire :=
  { wire with trace := wire.trace ++ (exchange.requests url).map .requested }

end SeoPlatform.Shared.Outbound
