/-!
The two shapes of a server deployment.
-/

namespace RedisGateway

/-- A single node, or a cluster of nodes that share the keys. -/
inductive Topology where
  | standalone
  | cluster
  deriving DecidableEq, Repr, Inhabited

namespace Topology

def name : Topology → String
  | .standalone => "standalone"
  | .cluster => "cluster"

/-- Both shapes. -/
def all : List Topology := [.standalone, .cluster]

end Topology
end RedisGateway
