import JsonShape.Settings

/-!
# Starting the server

How the server is started for its options: over the standard streams, or over one of two network
transports at a host and port.
-/

namespace JsonShape

/-- A start of the server: over the standard streams, or over a network transport. -/
inductive ServeCall
  | streams
  | network (transport host : String) (port : Int)
  deriving DecidableEq, Repr

/-- A transport that does not exist. -/
structure UnknownTransport where
  name : String
  deriving DecidableEq, Repr

/-- What is wrong with a transport that does not exist. -/
def UnknownTransport.message (e : UnknownTransport) : String := s!"Unknown transport: {e.name}"

/-- The start that the server's options ask for. -/
def ServerOptions.serveCall (o : ServerOptions) : Except UnknownTransport ServeCall :=
  if o.transport = "stdio" then .ok .streams
  else if o.transport = "streamable-http" || o.transport = "sse" then
    .ok (.network o.transport o.host o.port)
  else .error ⟨o.transport⟩

end JsonShape
