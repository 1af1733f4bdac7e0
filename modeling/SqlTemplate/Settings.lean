import SqlTemplate.Number.Numeral
import SqlTemplate.Text.Named

/-!
# Settings

Three settings with defaults, which the process environment and a file of `NAME=value` lines can
set. The names have a common beginning and their letter case does not matter; an empty value
counts as none; the environment goes before the file. A value that cannot be read, or a negative
size, is reported for each setting in order.
-/

namespace SqlTemplate

/-- The settings. -/
structure Settings where
  /-- Whether failed conditions are logged as warnings. -/
  debug : Bool
  /-- Whether engines drop the character before a tag, if they are not told. -/
  trim : Bool
  /-- How many compiled conditions are kept; none are if it is not positive. -/
  cacheSize : Int
  deriving DecidableEq, Repr

namespace Settings

/-- The settings that nobody has changed. -/
def default : Settings := ⟨false, true, 512⟩

/-- Names with the values that are set for them. -/
abbrev Variables := List (Text × Text)

/-- What can be wrong with a setting. -/
inductive Problem where
  /-- A truth value cannot be read. -/
  | notBool
  /-- An integer cannot be read. -/
  | notInt
  /-- An integer is too long to be read. -/
  | intTooLong
  /-- A size is negative. -/
  | negative
  deriving DecidableEq, Repr

/-- The kind and the wording of a problem. -/
def Problem.message : Problem → String
  | notBool => "bool_parsing: Input should be a valid boolean, unable to interpret input"
  | notInt =>
    "int_parsing: Input should be a valid integer, unable to parse string as an integer"
  | intTooLong =>
    "int_parsing_size: Unable to parse input string as an integer, exceeded maximum size"
  | negative => "greater_than_equal: Input should be greater than or equal to 0"

/-- A text in lower case; only ASCII letters matter in names and words. -/
def lower (s : Text) : Text := s.map Char.toLower

/-- Reads a truth value: one of the usual words or digits, letter case ignored. -/
def readBool (s : Text) : Except Problem Bool :=
  let word := String.ofList (lower s)
  if ["1", "t", "true", "y", "yes", "on"].contains word then .ok true
  else if ["0", "f", "false", "n", "no", "off"].contains word then .ok false
  else .error .notBool

/-- A number without its fraction, if that is all zeros. -/
def dropZeroFraction (s : Text) : Text :=
  let fraction := s.dropWhile (· != '.')
  if !fraction.isEmpty && (fraction.drop 1).all (· == '0') then s.takeWhile (· != '.') else s

/-- A row of digits without the zeros in front, of which the last is kept if nothing else is
there; an underscore among them goes too. -/
def dropLeadingZeros : Text → Text
  | '0' :: '_' :: c :: rest =>
    if c.isDigit then dropLeadingZeros (c :: rest) else '0' :: '_' :: c :: rest
  | '0' :: c :: rest => if c.isDigit then dropLeadingZeros (c :: rest) else '0' :: c :: rest
  | s => s

/-- Reads an integer: margins, a sign, zeros in front, an underscore between digits and a
fraction of zeros are allowed, digits of other scripts are not. -/
def readInt (s : Text) : Except Problem Int :=
  let (negative, digits) := Numeral.readSign (Numeral.stripMargins s)
  if !(digits.head?.any Char.isDigit) then .error .notInt
  else
    let digits := dropLeadingZeros (dropZeroFraction digits)
    if Fault.maxDigits < digits.length then .error .intTooLong
    else
      match Numeral.dropUnderscores? false digits with
      | some digits =>
        if digits.all Char.isDigit then
          let n : Int := Text.natOfDigits digits
          .ok (if negative then -n else n)
        else .error .notInt
      | none => .error .notInt

/-- Reads a size. -/
def readSize (s : Text) : Except Problem Int := do
  let n ← readInt s
  if n < 0 then throw .negative
  return n

/-- With what the name of every setting begins. -/
def nameHead : String := "CONDSQL_"

/-- The value of a setting. A name that is set twice in the same letter case has its last value;
of the names that differ in letter case alone, the last with a value counts. -/
def lookup (given : Variables) (name : String) : Option Text :=
  let wanted := lower (nameHead ++ name).toList
  ((Named.ofPairs given).reverse.find? fun (n, value) =>
    lower n == wanted && !value.isEmpty).map (·.2)

/-- Reads a setting from the first place that has it, or takes its default. -/
def setting {α : Type} (places : List Variables) (name : String)
    (read : Text → Except Problem α) (default : α) : Except Problem α :=
  match places.findSome? (lookup · name) with
  | some value => read value
  | none => .ok default

/-- The report of a setting that is wrong. -/
def report {α : Type} (name : String) : Except Problem α → List String
  | .ok _ => []
  | .error problem => [s!"{name}: {problem.message}"]

/-- Reads the settings from places of which the first goes before the others; or reports all that
is wrong. -/
def load (places : List Variables) : Except String Settings :=
  let debug := setting places "DEBUG" readBool default.debug
  let trim := setting places "TRIM_DIRECTIVE_PREFIX" readBool default.trim
  let cacheSize := setting places "EXPRESSION_CACHE_SIZE" readSize default.cacheSize
  match debug, trim, cacheSize with
  | .ok debug, .ok trim, .ok cacheSize => .ok ⟨debug, trim, cacheSize⟩
  | debug, trim, cacheSize =>
    .error ("; ".intercalate
      (report "DEBUG" debug ++ report "TRIM_DIRECTIVE_PREFIX" trim ++
        report "EXPRESSION_CACHE_SIZE" cacheSize))

end Settings

end SqlTemplate
