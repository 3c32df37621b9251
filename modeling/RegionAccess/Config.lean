import RegionAccess.Session.Registry

/-! The settings of an engine, each with a default. -/
namespace RegionAccess

structure LoggingConfig where
  level : String := "info"
  json : Bool := false
  deriving DecidableEq, Repr

structure Config where
  session : SessionConfig := {}
  /-- Server ticks between two invalidations of the index's cache. -/
  cacheInterval : Nat := 2
  worlds : WorldPolicies := {}
  /-- Host dependencies whose toggling starts all sessions over. -/
  watchedDependencies : List String := ["CommandBook"]
  logging : LoggingConfig := {}
  deriving DecidableEq

/-- A level from the process environment wins, be it empty. -/
def Config.withLevel (c : Config) (level : Option String) : Config :=
  { c with logging := { c.logging with level := level.getD c.logging.level } }

end RegionAccess
