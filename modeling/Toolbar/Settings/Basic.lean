/-
# `Toolbar.Settings.Basic` — the settings of a host

Settings come from environment variables.  A variable that is missing, blank, no number or negative
leaves its setting at the default; a NaN is not negative.
-/
import Toolbar.Number.Basic
import Toolbar.Text.Blank
import Toolbar.Text.Case

namespace Toolbar

open Text

/-- Variables with their values. -/
abbrev Environment := List (String × String)

namespace Environment

/-- The value of a variable. -/
def get? (env : Environment) (key : String) : Option String :=
  env.lookup key

end Environment

/-- The settings of a host. -/
structure Settings where
  webapiUrl : String := ""
  accessToken : Option String := none
  httpTimeout : Number := .real (Binary64.ofRatio false 30 1)
  cacheAttempts : Int := 5
  cacheRetryMillis : Number := .int 100
  configEntity : String := "theia_buttonconfiguration"
  logLevel : String := "INFO"
deriving DecidableEq

namespace Settings

/-- The delay before a cache asks again, in seconds. -/
def cacheRetryDelay (s : Settings) : Except Fault Number :=
  Number.div s.cacheRetryMillis (.real (Binary64.ofRatio false 1000 1))

/-- The trimmed value of a variable; empty when it is missing. -/
def trimmedValue (env : Environment) (key : String) : String :=
  trimmed ((env.get? key).getD "")

/-- The number that a variable holds, when it holds one that is not negative. -/
def number? (read : String → Option Number) (env : Environment) (key : String) : Option Number :=
  let raw := trimmedValue env key
  if raw.isEmpty then none
  else (read raw).filter fun n => n.compare? (.int 0) != some .lt

/-- The integer that a variable holds, when it holds one that is not negative. -/
def integer? (env : Environment) (key : String) : Option Int :=
  match number? (fun s => (Number.readInt s).toOption.map .int) env key with
  | some (.int i) => some i
  | _ => none

/-- A text, unless it is empty. -/
def filled? (s : String) : Option String :=
  if s.isEmpty then none else some s

/-- The settings that an environment makes. -/
def ofEnvironment (env : Environment) : Settings :=
  let defaults : Settings := {}
  { webapiUrl := String.ofList <|
      stripEndBy (· == '/') (trimmedValue env "SMARTBUTTON_WEBAPI_URL").toList
    accessToken := filled? (trimmedValue env "SMARTBUTTON_ACCESS_TOKEN")
    httpTimeout := (number? (fun s => (Number.readReal? s).map .real) env
      "SMARTBUTTON_HTTP_TIMEOUT").getD defaults.httpTimeout
    cacheAttempts := (integer? env "SMARTBUTTON_CACHE_ATTEMPTS").getD defaults.cacheAttempts
    cacheRetryMillis :=
      ((integer? env "SMARTBUTTON_CACHE_RETRY_MS").map .int).getD defaults.cacheRetryMillis
    configEntity :=
      (filled? (trimmedValue env "SMARTBUTTON_CONFIG_ENTITY")).getD defaults.configEntity
    logLevel :=
      let raw := ((env.get? "SMARTBUTTON_LOG_LEVEL").bind filled?).getD defaults.logLevel
      String.ofList (upper (trim raw.toList)) }

end Settings

end Toolbar
