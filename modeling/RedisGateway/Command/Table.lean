import RedisGateway.Command.Signature

/-!
The commands, by category.
-/

namespace RedisGateway

/-- The categories of commands. -/
inductive Category where
  | connection
  | string
  | key
  | hash
  | set
  | list
  | sortedSet
  deriving DecidableEq, Repr, Inhabited

namespace Category

def name : Category → String
  | .connection => "connection"
  | .string => "string"
  | .key => "key"
  | .hash => "hash"
  | .set => "set"
  | .list => "list"
  | .sortedSet => "sorted_set"

/-- Every category. -/
def all : List Category := [.connection, .string, .key, .hash, .set, .list, .sortedSet]

/-- The category that a value names. -/
def ofValue? (v : Value) : Option Category := all.find? fun c => v.isText c.name

end Category

namespace Command

open Parameter

/-- A command whose parameters must all be given. -/
def plain (name : String) (parameters : List String) : Command :=
  ⟨name, parameters.map needed, false⟩

/-- A command with some parameters that must be given and any number of further arguments. -/
def gathering (name : String) (parameters : List String) : Command :=
  ⟨name, parameters.map needed, true⟩

/-- A command with some parameters that must be given and some that need not. -/
def withOptions (name : String) (parameters : List String) (others : List Parameter) : Command :=
  ⟨name, parameters.map needed ++ others, false⟩

/-- A parameter that is nothing unless it is given. -/
def orNone (name : String) : Parameter := optional name .none

/-- The number one as a binary64 value. -/
def oneReal : Value := .real (Binary64.ofInt 1)

def connectionCommands : List Command :=
  [plain "ping" [], plain "echo" ["message"], withOptions "auth" ["password"] [orNone "username"],
   plain "client_getname" [], plain "client_setname" ["name"], plain "client_id" []]

def stringCommands : List Command :=
  [plain "get" ["key"],
   withOptions "set" ["key", "value"]
     [keyword "ex" .none, keyword "px" .none, switch "nx", switch "xx", switch "keepttl",
      switch "get"],
   plain "append" ["key", "value"],
   withOptions "bitcount" ["key"] [orNone "start", orNone "end"],
   plain "decr" ["key"],
   withOptions "decrby" ["key"] [optional "amount" (.whole 1)],
   plain "getrange" ["key", "start", "end"],
   plain "getset" ["key", "value"],
   plain "getdel" ["key"],
   plain "incr" ["key"],
   withOptions "incrby" ["key"] [optional "amount" (.whole 1)],
   withOptions "incrbyfloat" ["key"] [optional "amount" oneReal],
   plain "mget" ["keys"],
   plain "mset" ["mapping"],
   plain "msetnx" ["mapping"],
   plain "psetex" ["key", "milliseconds", "value"],
   plain "setex" ["key", "seconds", "value"],
   plain "setnx" ["key", "value"],
   plain "setrange" ["key", "offset", "value"],
   plain "strlen" ["key"]]

def keyCommands : List Command :=
  [gathering "delete" [], gathering "exists" [],
   plain "expire" ["key", "seconds"],
   plain "expireat" ["key", "when"],
   withOptions "keys" [] [optional "pattern" (.text "*")],
   plain "move" ["key", "db"],
   plain "persist" ["key"],
   plain "pexpire" ["key", "milliseconds"],
   plain "pexpireat" ["key", "when"],
   plain "pttl" ["key"],
   plain "randomkey" [],
   plain "rename" ["src", "dst"],
   plain "renamenx" ["src", "dst"],
   withOptions "sort" ["key"]
     [keyword "start" .none, keyword "num" .none, keyword "by" .none, keyword "get" .none,
      switch "desc", switch "alpha", keyword "store" .none],
   plain "ttl" ["key"],
   plain "type" ["key"],
   gathering "touch" [], gathering "unlink" []]

def hashCommands : List Command :=
  [gathering "hdel" ["key"],
   plain "hexists" ["key", "field"],
   plain "hget" ["key", "field"],
   plain "hgetall" ["key"],
   withOptions "hincrby" ["key", "field"] [optional "amount" (.whole 1)],
   withOptions "hincrbyfloat" ["key", "field"] [optional "amount" oneReal],
   plain "hkeys" ["key"],
   plain "hlen" ["key"],
   plain "hmget" ["key", "fields"],
   withOptions "hset" ["key"] [orNone "field", orNone "value", keyword "mapping" .none],
   plain "hsetnx" ["key", "field", "value"],
   plain "hstrlen" ["key", "field"],
   plain "hvals" ["key"]]

def setCommands : List Command :=
  [gathering "sadd" ["key"],
   plain "scard" ["key"],
   plain "sdiff" ["keys"],
   plain "sdiffstore" ["destination", "keys"],
   plain "sinter" ["keys"],
   plain "sinterstore" ["destination", "keys"],
   plain "sismember" ["key", "member"],
   plain "smembers" ["key"],
   plain "smove" ["source", "destination", "member"],
   withOptions "spop" ["key"] [orNone "count"],
   withOptions "srandmember" ["key"] [orNone "number"],
   gathering "srem" ["key"],
   plain "sunion" ["keys"],
   plain "sunionstore" ["destination", "keys"]]

def listCommands : List Command :=
  [withOptions "blpop" ["keys"] [optional "timeout" (.whole 0)],
   withOptions "brpop" ["keys"] [optional "timeout" (.whole 0)],
   plain "lindex" ["key", "index"],
   plain "linsert" ["key", "where", "pivot", "value"],
   plain "llen" ["key"],
   withOptions "lpop" ["key"] [orNone "count"],
   gathering "lpush" ["key"], gathering "lpushx" ["key"],
   plain "lrange" ["key", "start", "end"],
   plain "lrem" ["key", "count", "value"],
   plain "lset" ["key", "index", "value"],
   plain "ltrim" ["key", "start", "end"],
   withOptions "rpop" ["key"] [orNone "count"],
   gathering "rpush" ["key"], gathering "rpushx" ["key"]]

def sortedSetCommands : List Command :=
  [withOptions "zadd" ["key", "mapping"] [switch "nx", switch "xx", switch "ch", switch "incr"],
   plain "zcard" ["key"],
   plain "zcount" ["key", "min", "max"],
   plain "zincrby" ["key", "amount", "member"],
   withOptions "zinterstore" ["destination", "keys"] [orNone "aggregate"],
   plain "zlexcount" ["key", "min", "max"],
   withOptions "zrange" ["key", "start", "end"] [switch "desc", switch "withscores"],
   withOptions "zrangebylex" ["key", "min", "max"] [orNone "start", orNone "num"],
   withOptions "zrangebyscore" ["key", "min", "max"]
     [orNone "start", orNone "num", switch "withscores"],
   plain "zrank" ["key", "member"],
   gathering "zrem" ["key"],
   plain "zremrangebylex" ["key", "min", "max"],
   plain "zremrangebyrank" ["key", "start", "end"],
   plain "zremrangebyscore" ["key", "min", "max"],
   withOptions "zrevrange" ["key", "start", "end"] [switch "withscores"],
   withOptions "zrevrangebyscore" ["key", "max", "min"]
     [orNone "start", orNone "num", switch "withscores"],
   plain "zrevrank" ["key", "member"],
   plain "zscore" ["key", "member"],
   withOptions "zunionstore" ["destination", "keys"] [orNone "aggregate"]]

/-- The commands of a category. -/
def ofCategory : Category → List Command
  | .connection => connectionCommands
  | .string => stringCommands
  | .key => keyCommands
  | .hash => hashCommands
  | .set => setCommands
  | .list => listCommands
  | .sortedSet => sortedSetCommands

/-- The command of a category with a name. -/
def find? (category : Category) (name : String) : Option Command :=
  (ofCategory category).find? (·.name = name)

end Command

/-- What an executor has under a name. -/
inductive ExecutorMember where
  | command (c : Command)
  /-- Sends any command with its arguments as they are. -/
  | sender
  /-- Something that cannot be called. -/
  | attribute
  deriving Repr

namespace ExecutorMember

/-- The name under which any command can be sent. -/
def senderName : String := "_execute"

/-- What an executor has that cannot be called, or not by those who have it already. -/
def attributeNames : List String :=
  ["category", "connection_manager", "_connection_manager", "__doc__", "__module__", "__dict__",
   "__weakref__", "__annotations__", "__class__", "__init__"]

/-- What an executor of a category has under a name. -/
def find? (category : Category) (name : String) : Option ExecutorMember :=
  match Command.find? category name with
  | some c => some (.command c)
  | none =>
    if name = senderName then some .sender
    else if attributeNames.contains name then some .attribute
    else none

end ExecutorMember
end RedisGateway
