import Reckoner.Bot.Discovery
import Reckoner.Log.Record
import Reckoner.Text.Quoted

/-!
# Loading extensions

The registry holds the names of the loaded extensions.  Loading asks for every extension that is
found.  Reloading unloads what is no longer found, loads what is new, and reloads the rest; one
extension that fails stands in nobody's way.
-/

namespace Reckoner

/-- Puts a name in its place among sorted names, unless it is there. -/
def insertName (name : String) : List String → List String
  | [] => [name]
  | other :: rest =>
    if name < other then name :: other :: rest
    else if name = other then other :: rest
    else other :: insertName name rest

/-- What is asked of an extension. -/
inductive ExtensionRequest where
  | load
  | unload
  | reload
  deriving DecidableEq, Repr

/-- The name of a request. -/
def ExtensionRequest.name : ExtensionRequest → String
  | .load => "load"
  | .unload => "unload"
  | .reload => "reload"

/-- A request and whether it succeeded. -/
structure ExtensionCall where
  /-- The request. -/
  request : ExtensionRequest
  /-- The name of the extension. -/
  extension : String
  /-- Whether it succeeded. -/
  succeeded : Bool
  deriving DecidableEq, Repr

/-- How extensions behave when something is asked of them. -/
structure ExtensionHost where
  /-- Whether a request fails, given the registry. -/
  fails : List String → ExtensionRequest → String → Bool
  /-- What an extension logs while it is loaded. -/
  loading : String → List LogRecord

/-- The state of the extensions, and what was done and logged on the way to it. -/
structure ExtensionState where
  /-- The names of the loaded extensions, sorted. -/
  registry : List String
  /-- The requests, the first one first. -/
  calls : List ExtensionCall
  /-- The log. -/
  log : List LogRecord
  deriving DecidableEq

namespace ExtensionState

/-- Extensions as they stand, before anything is done. -/
def start (registry : List String) : ExtensionState := ⟨registry, [], []⟩

/-- Adds to the log. -/
def logging (s : ExtensionState) (records : List LogRecord) : ExtensionState :=
  { s with log := s.log ++ records }

/-- The registry after a request that succeeded. -/
def registryAfter (registry : List String) (request : ExtensionRequest) (extension : String) :
    List String :=
  match request with
  | .unload => registry.erase extension
  | _ => insertName extension registry

/-- Asks something of an extension; the two texts are for the log of a success and of a failure. -/
def ask (host : ExtensionHost) (request : ExtensionRequest) (success failure : String)
    (s : ExtensionState) (extension : String) : ExtensionState :=
  if host.fails s.registry request extension then
    { s with
      calls := s.calls ++ [⟨request, extension, false⟩]
      log := s.log ++ [⟨.error, s!"Failed to {failure} {extension}.", rootLogger⟩] }
  else
    { registry := registryAfter s.registry request extension
      calls := s.calls ++ [⟨request, extension, true⟩]
      log := s.log ++ (if request = .unload then [] else host.loading extension) ++
        [⟨.info, s!"Successfully {success}: {extension}", rootLogger⟩] }

/-- Loads every extension that was found. -/
def loadAll (host : ExtensionHost) (found : List String) (s : ExtensionState) : ExtensionState :=
  found.foldl (ask host .load "loaded extension" "load extension")
    (s.logging [⟨.info, s!"Found {found.length} cogs to load.", rootLogger⟩])

/-- Names in braces, or the word for none. -/
def listing (names : List String) : String :=
  if names.isEmpty then "None"
  else
    let quoted := ", ".intercalate (names.map fun name => String.ofList (Text.quoted name.toList))
    "\x7b" ++ quoted ++ "\x7d"

/-- Unloads, loads and reloads the given extensions, in this order. -/
def reloadEach (host : ExtensionHost) (removed added kept : List String) (s : ExtensionState) :
    ExtensionState :=
  let s := removed.foldl
    (ask host .unload "unloaded removed extension" "unload extension") s
  let s := added.foldl
    (ask host .load "loaded new extension" "load new extension") s
  kept.foldl (ask host .reload "reloaded extension" "reload extension") s

/-- Brings the registry in line with the extensions that were found. -/
def reloadAll (host : ExtensionHost) (found : List String) (s : ExtensionState) : ExtensionState :=
  let removed := s.registry.filter fun name => !found.contains name
  let added := found.filter fun name => !s.registry.contains name
  let kept := s.registry.filter found.contains
  let s := s.logging [
    ⟨.info, "Starting cog reload process...", rootLogger⟩,
    ⟨.info, s!"Currently loaded cogs: {listing s.registry}", rootLogger⟩,
    ⟨.info, s!"Discovered cogs in filesystem: {listing found}", rootLogger⟩]
  (reloadEach host removed added kept s).logging
    [⟨.info, "Finished reloading cogs.", rootLogger⟩]

end ExtensionState

end Reckoner
