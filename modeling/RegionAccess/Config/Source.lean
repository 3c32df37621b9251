import RegionAccess.Config.Reading
import RegionAccess.Yaml.Reading

/-! Settings from where they are kept: a YAML text, or a file that holds one. -/
namespace RegionAccess

inductive FileFault where
  | missing | notUnicode
  deriving DecidableEq, Repr

def FileFault.text : FileFault → String
  | .missing => "No such file or directory (os error 2)"
  | .notUnicode => "stream did not contain valid UTF-8"

inductive ConfigError where
  | unreadable (fault : FileFault)
  /-- No YAML document, or not one of settings. -/
  | malformed
  deriving DecidableEq, Repr

def ConfigError.message : ConfigError → String
  | .unreadable fault => "failed to read config file: " ++ fault.text
  | .malformed => "failed to parse config YAML"

namespace Config

def ofText (text : String) (level : Option String) : Except ConfigError Config :=
  match (Yaml.Node.ofText? text).bind read? with
  | some config => .ok (config.withLevel level)
  | none => .error .malformed

/-- The settings in a file of the given contents, if it is there. -/
def ofFile (contents : Option ByteArray) (level : Option String) : Except ConfigError Config :=
  match contents with
  | none => .error (.unreadable .missing)
  | some bytes =>
    match String.fromUTF8? bytes with
    | none => .error (.unreadable .notUnicode)
    | some text => ofText text level

end Config
end RegionAccess
