import StatefulPages.Inspect.Mapping
import StatefulPages.Inspect.Store

/-!
# The command line

A command has options, which begin with `--`, and operands. The value of an option follows it, or is
attached with `=`; a value that begins with `-` has to be attached, but `-` alone does not. Behind
`--` there are only operands.

Words are read one by one, and the first that cannot be accepted decides: a command line that asks
for help behind a mistake is refused. What is missing is only known at the end, so that help can
still be asked for.
-/

namespace StatefulPages.Inspect

/-- Why a command line is not carried out. -/
inductive Refusal where
  /-- Help was asked for. -/
  | help
  | misuse
  deriving DecidableEq, Repr, Inhabited

/-- Indicates a word that asks for help; what is attached to the short form does not matter. -/
def isHelp (word : String) : Bool :=
  word = "--help" || "-h".toList.isPrefixOf word.toList

/-! ## Values -/

/-- Reads a word of 32 bits with an optional sign. -/
def word? (s : String) : Option UInt32 :=
  match s.toList with
  | '-' :: cs => (Text.decimal32? cs).filter (· = 0)
  | cs => Text.signedDecimal32? cs

/-- What a value has to be. -/
inductive ValueKind where
  /-- Any text. -/
  | text
  /-- The path of a folder, which is not empty. -/
  | folder
  /-- A word of 32 bits. -/
  | word
  deriving DecidableEq, Repr, Inhabited

/-- Indicates a value of some kind. -/
def ValueKind.accepts : ValueKind → String → Bool
  | text, _ => true
  | folder, s => s ≠ ""
  | word, s => (word? s).isSome

/-! ## Options and operands -/

/-- What an option is like. -/
inductive OptionKind where
  /-- Without a value, and given at most once. -/
  | flag
  /-- With a value, and given at most once. -/
  | single (value : ValueKind)
  /-- With a value, and given any number of times. -/
  | many (value : ValueKind)
  deriving DecidableEq, Repr, Inhabited

namespace OptionKind

/-- Indicates a value that an option of some kind can have; that of a flag is empty. -/
def accepts : OptionKind → String → Bool
  | flag, s => s = ""
  | single value, s => value.accepts s
  | many value, s => value.accepts s

/-- Indicates an option that can be given more than once. -/
def isRepeatable : OptionKind → Bool
  | many _ => true
  | _ => false

end OptionKind

/-- What a command takes: options, by name, and up to as many operands as are listed. -/
structure Form where
  options : List (String × OptionKind) := []
  operands : List ValueKind := []
  deriving DecidableEq, Repr, Inhabited

/-- The words of a command line. -/
structure Words where
  /-- The options given and their values; that of a flag is empty. -/
  options : List (String × String) := []
  operands : List String := []
  deriving DecidableEq, Repr, Inhabited

namespace Words

/-- The values given for an option. -/
def values (w : Words) (name : String) : List String :=
  (w.options.filter (·.1 = name)).map (·.2)

/-- The last value given for an option. -/
def value? (w : Words) (name : String) : Option String :=
  (w.values name).getLast?

/-- Indicates that an option was given. -/
def has (w : Words) (name : String) : Bool :=
  !(w.values name).isEmpty

/-- Adds an option if it can be given, or given once more, with this value. -/
def addOption? (w : Words) (name : String) (kind : OptionKind) (value : String) : Option Words :=
  if (kind.isRepeatable || !w.has name) && kind.accepts value then
    some { w with options := w.options ++ [(name, value)] }
  else none

/-- Adds an operand if there is one more and it can be this. -/
def addOperand? (form : Form) (w : Words) (operand : String) : Option Words :=
  match form.operands[w.operands.length]? with
  | some kind =>
    if kind.accepts operand then some { w with operands := w.operands ++ [operand] } else none
  | none => none

/-- Indicates a word that cannot be the value of the option before it. -/
def isDashed (word : String) : Bool :=
  match word.toList with
  | '-' :: _ :: _ => true
  | _ => false

/-- The name of an option, and the value attached to it. -/
def splitOption (cs : List Char) : String × Option String :=
  let (name, value) := Text.splitFirst '=' cs
  (String.ofList name, value.map String.ofList)

/-- Reads the words of a command behind those in `w`. -/
def read (form : Form) : List String → Words → Except Refusal Words
  | [], w => .ok w
  | word :: rest, w =>
    if isHelp word then .error .help
    else match word.toList with
    | ['-', '-'] => (rest.foldlM (addOperand? form) w).elim (.error .misuse) .ok
    | '-' :: '-' :: cs =>
      let (name, attached) := splitOption cs
      match form.options.lookup name, attached, rest with
      | some .flag, none, rest =>
        (w.addOption? name .flag "").elim (.error .misuse) (read form rest)
      | some kind, some value, rest =>
        if kind = .flag then .error .misuse
        else (w.addOption? name kind value).elim (.error .misuse) (read form rest)
      | some kind, none, value :: rest =>
        if isDashed value then .error .misuse
        else (w.addOption? name kind value).elim (.error .misuse) (read form rest)
      | _, _, _ => .error .misuse
    | '-' :: _ :: _ => .error .misuse
    | _ => (addOperand? form w word).elim (.error .misuse) (read form rest)

end Words

/-! ## Commands -/

/-- What the tool can be asked to do. -/
inductive Command where
  /-- Lists the sessions of a store. -/
  | sessions (folder : StoreFolder) (pages : Bool)
  /-- Dumps a page of a store. -/
  | dump (folder : StoreFolder) (session : SessionId) (page : PageId) (length : Option UInt32)
  /-- Tries out a URL. -/
  | map (options : SiteOptions) (url : String) (ajax : Bool)
  deriving DecidableEq, Repr, Inhabited

namespace Command

/-- The options that name a store. -/
def storeOptions : List (String × OptionKind) :=
  [("store-folder", .single .folder), ("app", .single .text)]

/-- The store that the options name. -/
def storeFolder? (w : Words) : Option StoreFolder :=
  (w.value? "store-folder").map fun folder =>
    .ofApplication ⟨folder⟩ ((w.value? "app").getD "trellis")

def sessionsForm : Form :=
  { options := ("pages", .flag) :: storeOptions }

def sessions? (w : Words) : Option Command :=
  (storeFolder? w).map fun folder => sessions folder (w.has "pages")

def dumpForm : Form :=
  { options := ("len", .single .word) :: storeOptions, operands := [.text, .word] }

def dump? (w : Words) : Option Command :=
  match storeFolder? w, w.operands with
  | some folder, [session, page] =>
    (word? page).map fun page => dump folder session page ((w.value? "len").bind word?)
  | _, _ => none

def mapForm : Form :=
  { options := [("mount", .many .text), ("home", .single .text), ("register", .many .text),
      ("listener", .many .text), ("ajax", .flag)]
    operands := [.text] }

def map? (w : Words) : Option Command :=
  match w.operands with
  | [url] =>
    let options := { home := (w.value? "home").getD "Home", mounts := w.values "mount"
                     classes := w.values "register", listeners := w.values "listener" }
    some (map options url (w.has "ajax"))
  | _ => none

/-- What a command takes and how it is made of that, by its name. -/
def named? : String → Option (Form × (Words → Option Command))
  | "sessions" => some (sessionsForm, sessions?)
  | "dump" => some (dumpForm, dump?)
  | "map" => some (mapForm, map?)
  | _ => none

/-- Reads the words behind the name of a command. -/
def read (form : Form) (command? : Words → Option Command) (words : List String) :
    Except Refusal Command :=
  match Words.read form words {} with
  | .error r => .error r
  | .ok w => (command? w).elim (.error .misuse) .ok

/-- The answer to the words behind `help`, which may be one name. -/
def helpOn : List String → Refusal
  | [] => .help
  | [name] => if name = "help" ∨ (named? name).isSome then .help else .misuse
  | _ => .misuse

/-- Reads a command, behind the options that were given before its name. -/
def parseAfter : (given : List String) → List String → Except Refusal Command
  | _, [] => .error .misuse
  | given, word :: rest =>
    if word = "--quiet" ∨ word = "--verbose" then
      if word ∈ given then .error .misuse else parseAfter (word :: given) rest
    else if isHelp word then .error .help
    else if word = "help" then .error (helpOn rest)
    else match named? word with
      | some (form, command?) => read form command? rest
      | none => .error .misuse

/-- Reads a command line. The options in front of a command say how much is logged, and nothing
is. -/
def parse (args : List String) : Except Refusal Command :=
  parseAfter [] args

/-- Carries out a command. -/
def run : Command → Disk → Except Problem (List String)
  | sessions folder pages, d => listSessions folder pages d
  | dump folder session page length, d => dumpPage folder session page length d
  | map options url ajax, _ => tryUrl options url ajax

end Command

/-! ## The tool -/

/-- What the tool leaves behind. -/
structure Report where
  exit : Nat
  stdout : String := ""
  stderr : String := ""
  deriving DecidableEq, Repr, Inhabited

/-- What the tool says about its use. -/
def usage : String :=
  "Usage: [--quiet] [--verbose] <sessions|dump|map> ...\n"

/-- Runs the tool on a disk. -/
def report (args : List String) (d : Disk) : Report :=
  match Command.parse args with
  | .error .help => { exit := 0, stdout := usage }
  | .error .misuse => { exit := 2, stderr := usage }
  | .ok command =>
    match command.run d with
    | .ok lines => { exit := 0, stdout := String.join (lines.map (· ++ "\n")) }
    | .error p => { exit := 1, stderr := p.text }

end StatefulPages.Inspect
