import Inator.Plugins.Message
import Inator.Ports.Tcp.Stream

/-! Streams and runtimes, as the ports handle them. -/

namespace Inator

/-- A stream, by its identity. Its two halves go by it. -/
structure Stream where
  id : Nat
  kind : StreamKind
  deriving DecidableEq, Repr

/-- `tokio::runtime::Runtime`. The tasks spawned on it are recorded in its connection. -/
inductive Runtime
  | new
  deriving DecidableEq, Repr

/-- How the messages of a stream are framed. A web socket has frames of its own. -/
abbrev StreamFraming := Option (BytesOptions × OrderOptions)

end Inator
