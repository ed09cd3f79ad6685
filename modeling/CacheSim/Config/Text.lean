import CacheSim.Config.Format
import CacheSim.Document.Text

/-!
# Configurations as texts
-/

namespace CacheSim

/-- Reads a configuration and checks it. -/
def Config.ofText (text : String) : Except (ReadError ConfigError) Config :=
  Document.readText .yaml Config.shape Config.ofDocument? Config.validate text

end CacheSim
