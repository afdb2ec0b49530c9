import FrameIndex.HeaderId.Known
import FrameIndex.Report

/-!
Command-line arguments.

Arguments are read in the order in which they are given, and the first fault wins. A value that is
an argument of its own waits until the next option or file is recognised, or until the end, and is
checked only then; so an argument that is not recognised is reported before a bad value in front of
it. A value that is attached to its option is checked at once.
-/

namespace FrameIndex

/-- Why arguments are not carried out as they stand. -/
inductive UsageStop where
  | helpAsked
  | versionAsked
  | unknownArgument
  /-- An option that may be given once is given again. -/
  | repeatedOption
  | missingValue
  /-- The value is not one of those that the option may have. -/
  | unlistedValue
  | emptyPath
  /-- The value is no header's name, or no number. -/
  | unreadableValue
  /-- A value is attached to an option that takes none. -/
  | surplusValue
  deriving DecidableEq

/-- What the arguments say; what they do not mention is unset. -/
structure Arguments where
  file : Option String := none
  descriptor : Option Layout := none
  limit : Option Nat := none
  header : Option HeaderId := none
  format : Option ReportFormat := none
  listHeaders : Bool := false
  verbosity : Nat := 0
  deriving DecidableEq

/-- An option without a value. -/
inductive Switch where
  | listHeaders
  | verbose
  | help
  | version
  deriving DecidableEq

/-- An option with a value. -/
inductive Setting where
  | descriptor
  | limit
  | header
  | format
  deriving DecidableEq

/-- An option of either kind. -/
inductive OptionKey where
  | switch (key : Switch)
  | setting (key : Setting)
  deriving DecidableEq

namespace OptionKey

def ofName? : String → Option OptionKey
  | "list-headers" => some (switch .listHeaders)
  | "verbose" => some (switch .verbose)
  | "help" => some (switch .help)
  | "version" => some (switch .version)
  | "descriptor" => some (setting .descriptor)
  | "limit" => some (setting .limit)
  | "header" => some (setting .header)
  | "format" => some (setting .format)
  | _ => none

def ofLetter? : Char → Option OptionKey
  | 'v' => some (switch .verbose)
  | 'h' => some (switch .help)
  | 'V' => some (switch .version)
  | 'n' => some (setting .limit)
  | _ => none

end OptionKey

namespace Arguments

def layout (a : Arguments) : Layout := a.descriptor.getD .type2

def reportFormat (a : Arguments) : ReportFormat := a.format.getD .table

/-- A count in decimal digits that fits in 64 bits. A plus sign may stand in front. -/
def count? (text : String) : Option Nat :=
  let digits :=
    match text.toList with
    | '+' :: digits => digits
    | digits => digits
  let count := digits.foldl (fun count c => 10 * count + (c.toNat - '0'.toNat)) 0
  if !digits.isEmpty && digits.all Char.isDigit && count < UInt64.size then some count else none

/-- A value for an option that may be given once. -/
def once {α : Type} (given : Option α) (value : Option α) (fault : UsageStop) :
    Except UsageStop (Option α) :=
  match given, value with
  | some _, _ => .error .repeatedOption
  | none, none => .error fault
  | none, some value => .ok (some value)

def set (a : Arguments) (key : Setting) (text : String) : Except UsageStop Arguments :=
  match key with
  | .descriptor =>
    (once a.descriptor ([Layout.type2, .pcap].find? (·.name == text)) .unlistedValue).map
      fun descriptor => { a with descriptor }
  | .limit =>
    (once a.limit (count? text) .unreadableValue).map fun limit => { a with limit }
  | .header =>
    (once a.header (HeaderId.ofName? text) .unreadableValue).map fun header => { a with header }
  | .format =>
    (once a.format ([ReportFormat.table, .json].find? (·.name == text)) .unlistedValue).map
      fun format => { a with format }

/-- The arguments with an option switched on. Verbosity is counted up to 255. -/
def switchOn (a : Arguments) : Switch → Except UsageStop Arguments
  | .listHeaders =>
    if a.listHeaders then .error .repeatedOption else .ok { a with listHeaders := true }
  | .verbose => .ok { a with verbosity := min (a.verbosity + 1) 255 }
  | .help => .error .helpAsked
  | .version => .error .versionAsked

end Arguments

/-- What waits to be checked. -/
inductive Waiting where
  /-- An option, and its value if it is there already. -/
  | setting (key : Setting) (value : Option String)
  | file (path : String)
  deriving DecidableEq

/-- Arguments that are being read. -/
structure ArgumentReading where
  taken : Arguments := {}
  waiting : Option Waiting := none
  /-- Whether everything that follows is a file. -/
  filesOnly : Bool := false
  deriving DecidableEq

namespace ArgumentReading

def settled (r : ArgumentReading) : Except UsageStop Arguments :=
  match r.waiting with
  | none => .ok r.taken
  | some (.setting _ none) => .error .missingValue
  | some (.setting key (some text)) => r.taken.set key text
  | some (.file path) =>
    if path.isEmpty then .error .emptyPath else .ok { r.taken with file := some path }

/-- Settles what waits, and then lets something else wait. -/
def wait (r : ArgumentReading) (waiting : Waiting) : Except UsageStop ArgumentReading :=
  r.settled.map fun taken => { r with taken, waiting := some waiting }

/-- Settles what waits, and then changes the arguments. -/
def change (r : ArgumentReading) (f : Arguments → Except UsageStop Arguments) :
    Except UsageStop ArgumentReading :=
  (r.settled.bind f).map fun taken => { r with taken, waiting := none }

def hasFile (r : ArgumentReading) : Bool :=
  r.taken.file.isSome ||
    match r.waiting with
    | some (.file _) => true
    | _ => false

/-- Reads a file. There can be only one. -/
def readFile (r : ArgumentReading) (path : String) : Except UsageStop ArgumentReading :=
  if r.hasFile then .error .unknownArgument else r.wait (.file path)

/-- Reads an argument that is no option: the value that is waited for, or a file. -/
def readWord (r : ArgumentReading) (text : String) : Except UsageStop ArgumentReading :=
  match r.waiting with
  | some (.setting key none) => .ok { r with waiting := some (.setting key (some text)) }
  | _ => r.readFile text

/-- Reads an option by its long name, and the value attached to it if there is one. -/
def readLong (r : ArgumentReading) (name : String) (attached : Option String) :
    Except UsageStop ArgumentReading :=
  match OptionKey.ofName? name, attached with
  | none, _ => .error .unknownArgument
  | some (.switch _), some _ => .error .surplusValue
  | some (.switch key), none => r.change (·.switchOn key)
  | some (.setting key), some text => r.change (·.set key text)
  | some (.setting key), none => r.wait (.setting key none)

/-- The value in the letters after an option's letter. An equals sign may stand in front. -/
def attachedValue : List Char → String
  | '=' :: value => String.ofList value
  | value => String.ofList value

/-- Reads options by their letters. What follows the letter of a setting is its value. -/
def readLetters (r : ArgumentReading) : List Char → Except UsageStop ArgumentReading
  | [] => .ok r
  | letter :: rest =>
    match OptionKey.ofLetter? letter with
    | none => .error .unknownArgument
    | some (.switch key) => (r.change (·.switchOn key)).bind (·.readLetters rest)
    | some (.setting key) =>
      if rest.isEmpty then r.wait (.setting key none)
      else r.change (·.set key (attachedValue rest))

/-- Reads an argument. Two dashes by themselves make everything that follows a file, and a single
dash by itself is a word. -/
def read (r : ArgumentReading) (argument : String) : Except UsageStop ArgumentReading :=
  if r.filesOnly then r.readFile argument
  else
    match argument.toList with
    | ['-', '-'] => .ok { r with filesOnly := true }
    | '-' :: '-' :: option =>
      match option.span (· != '=') with
      | (name, '=' :: value) => r.readLong (String.ofList name) (some (String.ofList value))
      | (name, _) => r.readLong (String.ofList name) none
    | '-' :: letter :: letters => r.readLetters (letter :: letters)
    | _ => r.readWord argument

end ArgumentReading

def Arguments.ofList (arguments : List String) : Except UsageStop Arguments :=
  (arguments.foldlM ArgumentReading.read {}).bind (·.settled)

end FrameIndex
