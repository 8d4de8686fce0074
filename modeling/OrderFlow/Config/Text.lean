import OrderFlow.Config.Record
import OrderFlow.Toml.Reader

/-! # Configurations as texts -/

namespace OrderFlow.Config

/-- Reads a TOML text and checks the rules between its settings. -/
def ofToml (s : String) : Except ConfigError Config := do
  match (Toml.parse? s).bind (ofValue? Toml.format) with
  | none => throw .parse
  | some c =>
    c.validate
    pure c

end OrderFlow.Config
