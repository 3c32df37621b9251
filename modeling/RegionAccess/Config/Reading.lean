import RegionAccess.Config
import RegionAccess.Storage.World

/-! Reading the settings of an engine from a document; everything that is missing keeps its
default. -/
namespace RegionAccess
open Document

variable {δ : Type} [Document δ]

def SessionConfig.read? (node : δ) : Option SessionConfig := do
  let field ← fields? 0 ["tick_interval_ticks", "expiry_secs", "bypass_permission_prefix"] node
  let unset : SessionConfig := {}
  return {
    tickInterval := ← orElse unset.tickInterval word? (field "tick_interval_ticks")
    expirySeconds := ← orElse unset.expirySeconds word? (field "expiry_secs")
    bypassPermissionRoot :=
      ← orElse unset.bypassPermissionRoot text? (field "bypass_permission_prefix") }

def LoggingConfig.read? (node : δ) : Option LoggingConfig := do
  let field ← fields? 0 ["level", "json"] node
  let unset : LoggingConfig := {}
  return {
    level := ← orElse unset.level text? (field "level")
    json := ← orElse unset.json bool? (field "json") }

namespace Config

def readCacheInterval? (node : δ) : Option Nat := do
  let field ← fields? 0 ["cache_invalidation_ticks"] node
  orElse ({} : Config).cacheInterval word? (field "cache_invalidation_ticks")

def read? (node : δ) : Option Config := do
  let field ← fields? 0 ["session", "regions", "worlds", "watched_dependencies", "logging"] node
  let unset : Config := {}
  return {
    session := ← orElse unset.session SessionConfig.read? (field "session")
    cacheInterval := ← orElse unset.cacheInterval readCacheInterval? (field "regions")
    worlds := ← orElse unset.worlds WorldPolicies.read? (field "worlds")
    watchedDependencies :=
      ← orElse unset.watchedDependencies (list? text?) (field "watched_dependencies")
    logging := ← orElse unset.logging LoggingConfig.read? (field "logging") }

end Config
end RegionAccess
