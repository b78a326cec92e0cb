import Mathlib.Data.String.Basic
import Apteryx.Callback

/-!
# Apteryx.Config — the self-configuration handlers of `config.c`

Writing `/apteryx/<kind>/<guid>` runs the handler `config_init` registered for
that prefix. Five kinds share one body: strip the prefix, `update_callback`,
drop the returned reference. `handle_proxies_set` has its own: it splits the
value `<uri>:<path>` at its last `:` before the update, stores the URI in the
new record, and for a `NULL` value only looks the GUID up.

`update_callback` is transcribed statement by statement; its lock-protected
regions are the helpers `unlinkCallback` (lines 102–106 and 132–136) and
`createCallback` (lines 119–124). The concurrency module cuts it at those
regions.
-/

namespace Apteryx

open Registry

/-! ## Paths -/

/-- Modelled from the spec: `APTERYX_DEBUG_PATH`; `apteryx.h` is not among the sources. -/
def apteryxDebugPath : String := "/apteryx/debug"
/-- Modelled from the spec: `APTERYX_COUNTERS`; `apteryx.h` is not among the sources. -/
def apteryxCounters : String := "/apteryx/counters"
/-- Modelled from the spec: `APTERYX_STATISTICS`; `apteryx.h` is not among the sources. -/
def apteryxStatistics : String := "/apteryx/statistics"
/-- Modelled from the spec: `APTERYX_SOCKETS_PATH`; `apteryx.h` is not among the sources. -/
def apteryxSocketsPath : String := "/apteryx/sockets"
/-- Modelled from the spec: `APTERYX_WATCHERS_PATH`; `apteryx.h` is not among the sources. -/
def apteryxWatchersPath : String := "/apteryx/watchers"
/-- Modelled from the spec: `APTERYX_VALIDATORS_PATH`; `apteryx.h` is not among the sources. -/
def apteryxValidatorsPath : String := "/apteryx/validators"
/-- Modelled from the spec: `APTERYX_REFRESHERS_PATH`; `apteryx.h` is not among the sources. -/
def apteryxRefreshersPath : String := "/apteryx/refreshers"
/-- Modelled from the spec: `APTERYX_PROVIDERS_PATH`; `apteryx.h` is not among the sources. -/
def apteryxProvidersPath : String := "/apteryx/providers"
/-- Modelled from the spec: `APTERYX_INDEXERS_PATH`; `apteryx.h` is not among the sources. -/
def apteryxIndexersPath : String := "/apteryx/indexers"
/-- Modelled from the spec: `APTERYX_PROXIES_PATH`; `apteryx.h` is not among the sources. -/
def apteryxProxiesPath : String := "/apteryx/proxies"

/-! ## `update_callback` -/

/-- The write-locked region of lines 102–106 (and 132–136): drop the table
entry of `cb->guid`, disable the record and release it. -/
def unlinkCallback (a : Nat) (s : Registry) : Except Fault Registry := do
  let r ← s.deref a
  let s ← cbDisable a (s.tableRemove r.guid)
  cbRelease (some a) s

/-- Lines 119–124: `cb_create`, then `g_hash_table_replace` under the write
lock, keyed by the new record's GUID. -/
def createCallback (list : CallbackList) (guid value : String) (pid callback : UInt64)
    (s : Registry) : Except Fault (Option Nat × Registry) := do
  let (a, s) := cbCreate list guid value pid callback s
  let r ← s.deref a
  pure (some a, s.tableReplace r.guid a)

/-- `update_callback (list, guid, value)`: the returned record carries the
caller's reference. -/
def updateCallback (list : CallbackList) (guid : String) (value : Option String)
    (s : Registry) : Except Fault (Option Nat × Registry) :=
  let (n, pid, callback, _) := sscanfGuid guid
  if n ≠ 3 then .ok (none, s)
  else do
    let (cb, s) ← findCallback guid s
    if cb.isNone && value.isNone then pure (none, s)
    else do
      let s ← match cb, value with
        | some a, some _ => unlinkCallback a s
        | _, _ => pure s
      match value with
      | some v => do
        let s ← match cb with
          | some a => cbDisable a s >>= cbRelease (some a)
          | none => pure s
        createCallback list guid v pid callback s
      | none => do
        let s ← match cb with
          | some a => unlinkCallback a s
          | none => pure s
        pure (cb, s)

/-! ## The handlers -/

/-- The body shared by `handle_indexers_set`, `handle_watchers_set`,
`handle_refreshers_set`, `handle_providers_set` and `handle_validators_set`:
the GUID is the path past `<prefix>/`. -/
def handleCallbacksSet (list : CallbackList) (pfx : String) (path : String)
    (value : Option String) (s : Registry) : Except Fault (Bool × Registry) := do
  let guid := path.drop (pfx.length + 1)
  let (cb, s) ← updateCallback list guid value s
  let s ← cbRelease cb s
  pure (true, s)

/-- `handle_indexers_set`. -/
def handleIndexersSet := handleCallbacksSet .index apteryxIndexersPath
/-- `handle_watchers_set`. -/
def handleWatchersSet := handleCallbacksSet .watch apteryxWatchersPath
/-- `handle_refreshers_set`. -/
def handleRefreshersSet := handleCallbacksSet .refresh apteryxRefreshersPath
/-- `handle_providers_set`. -/
def handleProvidersSet := handleCallbacksSet .provide apteryxProvidersPath
/-- `handle_validators_set`. -/
def handleValidatorsSet := handleCallbacksSet .validation apteryxValidatorsPath

/-- `strrchr (s, c)`: the index of the last `c`, `none` for `NULL`. -/
def strrchr : List Char → Char → Option Nat
  | [], _ => none
  | x :: xs, c =>
    match strrchr xs c with
    | some i => some (i + 1)
    | none => if x = c then some 0 else none

/-- `handle_proxies_set`. A non-`NULL` value must start with `unix://` or
`tcp://`; the pattern is what follows its last `:`, the URI what precedes it.
The record `update_callback` returns is dereferenced unchecked. -/
def handleProxiesSet (path : String) (value : Option String) (s : Registry) :
    Except Fault (Bool × Registry) :=
  let guid := path.drop (apteryxProxiesPath.length + 1)
  match value with
  | some value =>
    if !"unix://".toList.isPrefixOf value.toList && !"tcp://".toList.isPrefixOf value.toList then
      .ok (false, s)
    else
      match strrchr value.toList ':' with
      | none => .error .nullDeref
      | some i => do
        let path : String := value.drop (i + 1)
        let (cb, s) ← updateCallback .proxy guid (some path) s
        let some a := cb | throw .nullDeref
        let r ← s.deref a
        let uri : String := value.take (value.length - path.length - 1)
        let s := s.store a { r with uri := some uri, path := path }
        let s ← cbRelease cb s
        pure (true, s)
  | none => do
    let (cb, s) ← findCallback guid s
    let s ← cbRelease cb s
    pure (true, s)

/-! ## `config_init` -/

/-- The functions `config_init` registers; their addresses are the records'
`ref`. -/
inductive Builtin
  | debugSet | countersIndex | countersGet | statisticsRefresh | socketsSet
  | indexersSet | watchersSet | refreshersSet | providersSet | validatorsSet | proxiesSet
  deriving DecidableEq, Repr

/-- The records `config_init` creates, in its order: tree, GUID, pattern and
function. -/
def builtins : List (CallbackList × String × String × Builtin) :=
  [(.watch, "debug", apteryxDebugPath, .debugSet),
   (.index, "counters", apteryxCounters ++ "/", .countersIndex),
   (.provide, "counters", apteryxCounters ++ "/", .countersGet),
   (.refresh, "statistics", apteryxStatistics ++ "/*", .statisticsRefresh),
   (.watch, "sockets", apteryxSocketsPath ++ "/", .socketsSet),
   (.watch, "indexers", apteryxIndexersPath ++ "/", .indexersSet),
   (.watch, "watchers", apteryxWatchersPath ++ "/", .watchersSet),
   (.watch, "refreshers", apteryxRefreshersPath ++ "/", .refreshersSet),
   (.watch, "providers", apteryxProvidersPath ++ "/", .providersSet),
   (.watch, "validators", apteryxValidatorsPath ++ "/", .validatorsSet),
   (.watch, "proxies", apteryxProxiesPath ++ "/", .proxiesSet)]

/-- One `cb_create` / `cb_release` pair of `config_init`. -/
def initCallback (pid : UInt64) (addr : Builtin → UInt64) (s : Registry)
    (b : CallbackList × String × String × Builtin) : Except Fault Registry := do
  let (cb, s) := cbCreate b.1 b.2.1 b.2.2.1 pid (addr b.2.2.2) s
  cbRelease (some cb) s

/-- `config_init`, from empty trees and an empty table. `pid` is `getpid ()`
and `addr f` the address of `f`. The final `if (!cb)` tests a pointer that is
not `NULL` and does nothing. -/
def configInit (pid : UInt64) (addr : Builtin → UInt64) : Except Fault Registry :=
  builtins.foldlM (initCallback pid addr) Registry.empty

/-! ## Writes and reachable states -/

/-- The prefix each kind's registrations are written under. -/
def CallbackList.configPath : CallbackList → String
  | .watch => apteryxWatchersPath
  | .validation => apteryxValidatorsPath
  | .refresh => apteryxRefreshersPath
  | .provide => apteryxProvidersPath
  | .index => apteryxIndexersPath
  | .proxy => apteryxProxiesPath

/-- The handler `config_init` watches each prefix with. -/
def handlerOf : CallbackList → String → Option String → Registry → Except Fault (Bool × Registry)
  | .watch => handleWatchersSet
  | .validation => handleValidatorsSet
  | .refresh => handleRefreshersSet
  | .provide => handleProvidersSet
  | .index => handleIndexersSet
  | .proxy => handleProxiesSet

/-- A write of `value` to `/apteryx/<list>/<guid>`. -/
structure Write where
  list : CallbackList
  guid : String
  value : Option String
  deriving DecidableEq, Repr

/-- The path the write goes to. -/
def Write.path (w : Write) : String := w.list.configPath ++ "/" ++ w.guid

/-- Dispatch the write to its handler. -/
def Write.run (w : Write) (s : Registry) : Except Fault (Bool × Registry) :=
  handlerOf w.list w.path w.value s

/-- The states `config_init` can produce, whatever the process id and the
handlers' addresses. -/
def Initial (s : Registry) : Prop :=
  ∃ pid addr, configInit pid addr = .ok s

/-- The registry states reachable from `config_init` by completed writes. -/
inductive Reachable : Registry → Prop
  | init {s : Registry} : Initial s → Reachable s
  | step {s s' : Registry} (w : Write) {b : Bool} :
      Reachable s → w.run s = .ok (b, s') → Reachable s'

end Apteryx
