import RedisGateway.Fault

/-!
Codecs: how keys and values are encoded for the server, and whether replies are decoded.
-/

namespace RedisGateway

/-- A value of a client keyword. -/
inductive Setting where
  | text (s : String)
  /-- Code points of which some are no characters. -/
  | brokenText (codePoints : List Nat)
  | number (n : Int)
  | flag (b : Bool)
  /-- A number of seconds. -/
  | seconds (d : Duration)
  deriving DecidableEq, Repr

/-- A text that may be broken, as the value of a keyword. -/
def Setting.ofText : LooseText → Setting
  | .plain s => .text s
  | .broken ns => .brokenText ns

/-- Client keywords with their values. -/
abbrev Keywords := List (String × Setting)

/-- The codecs that settings can choose. -/
inductive CodecType where
  | string
  | bytes
  deriving DecidableEq, Repr, Inhabited

namespace CodecType

def name : CodecType → String
  | .string => "string"
  | .bytes => "bytes"

/-- Every codec of the settings. -/
def all : List CodecType := [.string, .bytes]

/-- The codec that a value names. -/
def ofValue? (v : Value) : Option CodecType := all.find? fun t => v.isText t.name

end CodecType

/-- The encoding applied to every connection. -/
structure Codec where
  name : String
  encoding : String := "utf-8"
  encodingErrors : String := "strict"
  decodeResponses : Bool := true
  deriving DecidableEq, Repr, Inhabited

namespace Codec

/-- The codec that a setting chooses: replies are texts, or the bytes as they come. -/
def preset (t : CodecType) : Codec :=
  { name := t.name, decodeResponses := t = .string }

/-- The codec of managers that are given none. -/
def default : Codec := preset .string

/-- The preset codec that a value names. -/
def forValue (v : Value) : Except Fault Codec :=
  match CodecType.ofValue? v with
  | some t => .ok (preset t)
  | none => .error (.unknownCodec v)

/-- The keywords that make a client use the codec. -/
def keywords (c : Codec) : Keywords :=
  [("encoding", .text c.encoding), ("encoding_errors", .text c.encodingErrors),
   ("decode_responses", .flag c.decodeResponses)]

end Codec
end RedisGateway
