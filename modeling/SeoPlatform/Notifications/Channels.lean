import SeoPlatform.Notifications.Deliver
import SeoPlatform.Shared.Outbound

namespace SeoPlatform.Notifications.Channels

open SeoPlatform.Notifications.Deliver
open SeoPlatform.Shared.Exceptions
open SeoPlatform.Shared.Netguard
open SeoPlatform.Shared.Outbound

structure Result where
  ok : Bool
  status : Option Nat := none
  error : Option String := none
  deriving DecidableEq, Repr

/-- Every redirect of the answer is followed by the library. -/
def sendWebhook (env : Surroundings) (exchange : Exchange) (wire : Wire) (target : String) :
    Result × Wire :=
  match check env wire target with
  | (.error e, wire) =>
      ({ ok := false, error := some ("blocked target: " ++ e.text) }, wire)
  | (.ok (), wire) =>
      let result : Result :=
        match exchange.ending with
        | .response response => {
            ok := response.status < 400
            status := some response.status
            error := if response.status < 400 then none
              else some ("HTTP " ++ toString response.status) }
        | .tooManyRedirects text =>
            { ok := false, error := some ("TooManyRedirects: " ++ text) }
        | .timeout className text | .requestException className text =>
            { ok := false, error := some (className ++ ": " ++ text) }
      (result, request wire target exchange)

/-- What comes of a mail: what the message class says of its headers, and how
the session with the server fails. -/
structure Mail where
  fault : Option Exn := none
  failure : Option (String × String) := none

def sendEmail (smtpHost : Option String) (mail : Mail) : Except Exn Result :=
  if smtpHost.getD "" = "" then
    .ok { ok := false, error := some "SMTP_HOST is not configured" }
  else
    match mail.fault, mail.failure with
    | some e, _ => .error e
    | none, some (className, text) =>
        .ok { ok := false, error := some (className ++ ": " ++ text) }
    | none, none => .ok { ok := true }

/-- All that a send meets outside this code. -/
structure Circumstances where
  env : Surroundings
  smtpHost : Option String
  exchange : Exchange
  mail : Mail

/-- Dispatch to whichever transport the channel is. -/
def send (outside : Circumstances) (wire : Wire) (channel : Channel) :
    Except Exn Result × Wire :=
  if channel.kind = "webhook" then
    let (result, wire) := sendWebhook outside.env outside.exchange wire channel.target
    (.ok result, wire)
  else if channel.kind = "email" then (sendEmail outside.smtpHost outside.mail, wire)
  else
    (.ok { ok := false, error := some ("unknown channel kind '" ++ channel.kind ++ "'") }, wire)

end SeoPlatform.Notifications.Channels
