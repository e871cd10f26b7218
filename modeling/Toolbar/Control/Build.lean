/-
# `Toolbar.Control.Build` — a control from settings

A control works over the store that it is given, over a web service when the settings name one, and
over records in memory otherwise.  All controls of a host share one cache and one bus, and the
settings of the first one decide how patient the cache is.
-/
import Toolbar.Service.Client
import Toolbar.Settings.Basic

namespace Toolbar.Control

/-- The store that a control works over. -/
inductive Backend where
  | given
  | service (client : Service.Client)
  | memory

/-- The store that settings choose. -/
def Backend.choose (given : Bool) (s : Settings) : Backend :=
  if given then .given
  else if s.webapiUrl.isEmpty then .memory
  else .service (Service.Client.connect s.webapiUrl s.accessToken [])

/-- How often a cache pauses before a load of its own, and the first pause in seconds. -/
structure Patience where
  attempts : Int
  delay : Number
deriving DecidableEq

/-- The patience that settings ask for. -/
def Patience.ofSettings (s : Settings) : Except Fault Patience :=
  s.cacheRetryDelay.map fun delay => ⟨s.cacheAttempts, delay⟩

/-- A control with its store and the patience of the common cache. -/
structure Built where
  backend : Backend
  patience : Patience

/-- The controls that settings make, one after the other; `common` is the patience of a cache that
is there already. -/
def build (given : Bool) (common : Option Patience) : List Settings → Except Fault (List Built)
  | [] => .ok []
  | s :: rest => do
      let patience ← match common with
        | some p => pure p
        | none => Patience.ofSettings s
      let others ← build given (some patience) rest
      return ⟨Backend.choose given s, patience⟩ :: others

end Toolbar.Control
