import RegionAccess.Config.Source
import RegionAccess.Engine
import RegionAccess.Storage.Actor
import RegionAccess.Storage.Region
import RegionAccess.Proofs.Computation
import RegionAccess.Proofs.Index.Answers
import RegionAccess.Proofs.Session.Runs
import RegionAccess.Proofs.Session.KnownRegions
import RegionAccess.Proofs.Index.Calls
import RegionAccess.Proofs.Session.Calls
import RegionAccess.Proofs.Session.Boundary
import RegionAccess.Proofs.Event.Effect
import RegionAccess.Proofs.Event.FailClosed
import RegionAccess.Proofs.Cause.Closure
import RegionAccess.Proofs.Cause.Precedence
import RegionAccess.Proofs.Cause.Intermediaries
import RegionAccess.Proofs.Cause.Triggers
import RegionAccess.Proofs.Cause.Ancestry
import RegionAccess.Proofs.Cause.Accumulation
import RegionAccess.Proofs.Cause.Recursion
import RegionAccess.Proofs.Session.Frames
import RegionAccess.Proofs.Session.Continuity
import RegionAccess.Proofs.Session.Riders
import RegionAccess.Proofs.Engine.FreeWorlds
import RegionAccess.Proofs.Session.History
import RegionAccess.Proofs.Session.Bypass
import RegionAccess.Proofs.Session.Moments
import RegionAccess.Proofs.Session.Commutation
import RegionAccess.Proofs.Session.Profiles
import RegionAccess.Proofs.Number.Floats
import RegionAccess.Proofs.Storage.Fields
import RegionAccess.Proofs.Storage.Form
import RegionAccess.Proofs.Storage.NormalForm
import RegionAccess.Proofs.Storage.RoundTrip
import RegionAccess.Proofs.Region.Standing
import RegionAccess.Proofs.Session.Refusal
import RegionAccess.Proofs.Session.Repetition
import RegionAccess.Proofs.Session.Rounds
import RegionAccess.Proofs.Session.Passage
import RegionAccess.Proofs.Session.Watching
import RegionAccess.Proofs.Cause.Bindings
import RegionAccess.Proofs.Region.Information
import RegionAccess.Proofs.Event.Snapshot
import RegionAccess.Proofs.Engine.Toggling
import RegionAccess.Proofs.Region.LetterCase
import RegionAccess.Proofs.Session.Expiry
import RegionAccess.Proofs.Session.Synchrony
import RegionAccess.Proofs.Engine.LastToggle
import RegionAccess.Proofs.Engine.Leaving
import RegionAccess.Proofs.Session.Questions
import RegionAccess.Proofs.Engine.Chores
import RegionAccess.Proofs.Engine.Happenings
import RegionAccess.Proofs.Engine.Agenda
