import RedisGateway.Text.Pattern

/-!
Tags of YAML nodes, and the tags that plain scalars have by their form: those of YAML 1.1, by which
documents are read, and the reserved forms of YAML 1.2, by which texts are written.
-/

namespace RedisGateway.Yaml

open Text Pattern

/-- The type of a node. -/
inductive Tag where
  | null
  | bool
  | int
  | float
  | binary
  | timestamp
  | orderedMap
  | pairs
  | set
  | str
  | seq
  | map
  | merge
  | value
  | other (name : String)
  deriving DecidableEq, Repr, Inhabited

namespace Tag

/-- What the names of the common tags begin with. -/
def start : String := "tag:yaml.org,2002:"

/-- The common tags that a document may name. -/
def common : List (String × Tag) :=
  [("null", .null), ("bool", .bool), ("int", .int), ("float", .float), ("binary", .binary),
   ("timestamp", .timestamp), ("omap", .orderedMap), ("pairs", .pairs), ("set", .set),
   ("str", .str), ("seq", .seq), ("map", .map), ("merge", .merge), ("value", .value)]

/-- The tag with a name. -/
def ofName (name : String) : Tag :=
  match common.find? fun p => start ++ p.1 = name with
  | .some p => p.2
  | none => .other name

/-! ## Forms of scalars -/

def sign : Pattern := maybe (oneOf "+-")

def digitOrBar : Pattern := range '0' '9' "_"

def hexOrBar : Pattern := any [digitOrBar, range 'a' 'f' "", range 'A' 'F' ""]

/-- Digits of which the first one is no bar. -/
def digits : Pattern := .andThen digit (.many digitOrBar)

/-- A number of sixtieths. -/
def sixtieths : Pattern := all [char ':', maybe (range '0' '5' ""), digit]

def infinity : Pattern := .andThen sign (oneOfTexts [".inf", ".Inf", ".INF"])

def notANumber : Pattern := oneOfTexts [".nan", ".NaN", ".NAN"]

def signedExponent : Pattern := all [oneOf "eE", oneOf "+-", some digit]

def freeExponent : Pattern := all [oneOf "eE", sign, some digit]

/-- Truth values of YAML 1.1. -/
def boolForm : Pattern :=
  oneOfTexts ["yes", "Yes", "YES", "no", "No", "NO", "true", "True", "TRUE", "false", "False",
    "FALSE", "on", "On", "ON", "off", "Off", "OFF"]

/-- Floating point numbers of YAML 1.1. -/
def floatForm : Pattern :=
  any
    [all [sign, digits, char '.', .many digitOrBar, maybe signedExponent],
     all [char '.', digits, maybe signedExponent],
     all [sign, digits, some sixtieths, char '.', .many digitOrBar],
     infinity, notANumber]

/-- Integers of YAML 1.1. -/
def intForm : Pattern :=
  let positive := .andThen (range '1' '9' "") (.many digitOrBar)
  any
    [all [sign, text "0b", some (oneOf "01_")],
     all [sign, char '0', some (range '0' '7' "_")],
     all [sign, .or (char '0') positive],
     all [sign, text "0x", some hexOrBar],
     all [sign, positive, some sixtieths]]

def mergeForm : Pattern := text "<<"

def nullForm : Pattern := oneOfTexts ["~", "null", "Null", "NULL", ""]

/-- Dates and points in time. -/
def timestampForm : Pattern :=
  let upToTwo := .andThen digit (maybe digit)
  let two := times 2 digit
  let blanks := oneOf " \t"
  let zone := .or (char 'Z') (all [oneOf "+-", upToTwo, maybe (.andThen (char ':') two)])
  .or (all [times 4 digit, char '-', two, char '-', two])
    (all [times 4 digit, char '-', upToTwo, char '-', upToTwo, .or (oneOf "Tt") (some blanks),
      upToTwo, char ':', two, char ':', two, maybe (.andThen (char '.') (.many digit)),
      maybe (.andThen (.many blanks) zone)])

def valueForm : Pattern := text "="

/-- The forms of YAML 1.1, the first that fits counts. -/
def forms : List (Pattern × Tag) :=
  [(boolForm, .bool), (floatForm, .float), (intForm, .int), (mergeForm, .merge),
   (nullForm, .null), (timestampForm, .timestamp), (valueForm, .value),
   (oneOfTexts ["!", "&", "*"], .other "tag:yaml.org,2002:yaml")]

/-- Whether a text has a form, by itself or before the line feed that ends it. -/
def hasForm (p : Pattern) (cs : List Char) : Bool :=
  p.accepts cs || (cs.getLast? = .some '\n' && 1 < cs.length && p.accepts cs.dropLast)

/-- The tag of a plain scalar by its form. -/
def ofPlain (cs : List Char) : Tag :=
  match forms.find? fun f => hasForm f.1 cs with
  | .some f => f.2
  | none => .str

/-! ## Reserved forms -/

/-- Floating point numbers of YAML 1.2. -/
def reservedFloat : Pattern :=
  any
    [all [sign, digits, char '.', .many digitOrBar, maybe freeExponent],
     all [sign, digits, freeExponent],
     all [sign, char '.', some digitOrBar, maybe signedExponent],
     infinity, notANumber]

/-- Integers of YAML 1.2. -/
def reservedInt : Pattern :=
  any
    [all [sign, text "0b", some (oneOf "01_")],
     all [sign, char '0', maybe (char 'o'), some (range '0' '7' "_")],
     all [oneOf "+-", some digitOrBar],
     all [digit, .many digitOrBar],
     all [sign, text "0x", some hexOrBar]]

/-- Plain scalars that YAML 1.2 does not read as texts. -/
def reserved : Pattern :=
  any
    [oneOfTexts ["true", "True", "TRUE", "false", "False", "FALSE"], reservedFloat, reservedInt,
     mergeForm, nullForm, timestampForm, valueForm, oneOfTexts ["!", "&", "*"]]

end Tag
end RedisGateway.Yaml
