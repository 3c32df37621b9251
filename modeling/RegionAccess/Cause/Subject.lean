import RegionAccess.Cause
import RegionAccess.Platform
import RegionAccess.Subject
import RegionAccess.World

/-! Whom a cause is judged as: its root, by identity where it has one and by place otherwise. -/
namespace RegionAccess

/-- The place is fixed here, so the entity moving later changes nothing. -/
def EntityRef.judgedAt (e : EntityRef) (platform : Platform) (worlds : WorldPolicies) : Location :=
  let live := (platform.location? e.id).getD e.location
  if (worlds.policyOf e.location.world).useEntityOrigin then
    (platform.origin? e.id <|> e.origin).getD live
  else live

namespace ActorRef

def subject (a : ActorRef) (platform : Platform) (worlds : WorldPolicies) : Subject :=
  match a with
  | .player p =>
      match platform.player? p.id with
      | some i => .player i
      | none => .offline { id := p.id, name := p.name }
  | .offlineUser u =>
      .offline ((platform.offlineUser? u.id).getD { id := u.id, name := u.name.getD u.id.text })
  | .entity e => .deferred { location := e.judgedAt platform worlds }
  | .block b => .deferred { location := b.block.center }
  | .unknown => .constant .nonMember

end ActorRef

/-- A cause that is not known has no standing anywhere. -/
def Cause.subject (c : Cause) (platform : Platform) (worlds : WorldPolicies) : Subject :=
  match c.isKnown, c.root? with
  | true, some root => root.subject platform worlds
  | _, _ => .constant .nonMember

end RegionAccess
