import DurableStore.Settings

/-!
# Command-line options

The options of the server program replace its settings.  An option may be
shortened as long as it stays unambiguous, and a value may follow it as the
next word or behind an equals sign.  A word that begins with a hyphen is an
option unless it is a negative number or holds a blank.  All words are
classified before any is acted on, so an ambiguous option is refused before
anything else.

Main definitions:

- `Options.Word.ofString`: what a word of the command line is.
- `Options.parse`: the options that a command line amounts to.
-/

namespace DurableStore

/-- What the command line can say. -/
inductive Flag
  | help
  | host
  | port
  | logPath
  | flushInterval
  | debug
  deriving DecidableEq, Repr

namespace Flag

/-- The spellings of an option. -/
def spellings : Flag → List String
  | .help => ["-h", "--help"]
  | .host => ["--host"]
  | .port => ["--port"]
  | .logPath => ["--aof-path"]
  | .flushInterval => ["--flush-interval"]
  | .debug => ["--debug"]

/-- Whether an option needs a value. -/
def takesValue : Flag → Bool
  | .help | .debug => false
  | .host | .port | .logPath | .flushInterval => true

/-- An option in messages. -/
def title (flag : Flag) : String :=
  "/".intercalate flag.spellings

/-- All options in their order. -/
def all : List Flag := [.help, .host, .port, .logPath, .flushInterval, .debug]

/-- All spellings in their order. -/
def table : List (String × Flag) :=
  all.flatMap fun flag => flag.spellings.map fun spelling => (spelling, flag)

/-- The option of a full spelling. -/
def ofSpelling? (spelling : List Char) : Option Flag :=
  (table.find? fun entry => entry.1.toList == spelling).map (·.2)

end Flag

/-- Why a command line is refused. -/
inductive UsageError
  /-- An option is followed by no value. -/
  | missingValue (flag : Flag)
  /-- A value is not of the type that the option needs. -/
  | badValue (flag : Flag) (type value : String)
  /-- An option that takes no value was given one. -/
  | unwantedValue (flag : Flag) (value : String)
  /-- A shortened option could mean several. -/
  | ambiguous (word : String) (candidates : List String)
  /-- Words remain that mean nothing. -/
  | unrecognized (words : List String)
  deriving DecidableEq, Repr

namespace UsageError

/-- The wording of the refusal of a command line. -/
def message : UsageError → String
  | .missingValue flag => "argument " ++ flag.title ++ ": expected one argument"
  | .badValue flag type value =>
      "argument " ++ flag.title ++ ": invalid " ++ type ++ " value: " ++ Text.quoteString value
  | .unwantedValue flag value =>
      "argument " ++ flag.title ++ ": ignored explicit argument " ++ Text.quoteString value
  | .ambiguous word candidates =>
      "ambiguous option: " ++ word ++ " could match " ++ ", ".intercalate candidates
  | .unrecognized words => "unrecognized arguments: " ++ " ".intercalate words

end UsageError

/-- Why a command line yields no options. -/
inductive Dismissal
  /-- Help was asked for. -/
  | help
  /-- The command line is wrong. -/
  | usage (error : UsageError)
  deriving DecidableEq, Repr

namespace Dismissal

/-- The exit status of a program that is dismissed by its command line. -/
def status : Dismissal → Nat
  | .help => 0
  | .usage _ => 2

/-- The message of a program that is dismissed by its command line. -/
def message : Dismissal → String
  | .help => ""
  | .usage error => error.message

end Dismissal

/-- How a value is attached to an option within one word. -/
inductive Attached
  /-- Nothing is attached. -/
  | nothing
  /-- A value stands behind an equals sign. -/
  | value (value : List Char)
  /-- More letters stand behind a one-letter option. -/
  | letters (letters : List Char)
  deriving DecidableEq, Repr

/-- What a word of the command line is. -/
inductive Word
  /-- A word that can be the value of an option. -/
  | plain (text : String)
  /-- A word that cannot be a value and means nothing. -/
  | stray (text : String)
  /-- An option. -/
  | flag (flag : Flag) (attached : Attached)
  deriving DecidableEq, Repr

namespace Word

/-- Split a word at its first equals sign. -/
def splitEquals (word : List Char) : List Char × Option (List Char) :=
  match word.dropWhile (· != '=') with
  | [] => (word, none)
  | _ :: value => (word.takeWhile (· != '='), some value)

/-- Whether a word, whose leading hyphen has been removed, is a decimal without
an exponent.  A line feed may follow. -/
def isPlainDecimal (body : List Char) : Bool :=
  let body := if body.getLast? = some '\n' then body.dropLast else body
  let isDigit := fun c => (Written.digitValue? c).isSome
  let tail := body.dropWhile isDigit
  match tail with
  | [] => !body.isEmpty
  | '.' :: places => !places.isEmpty && places.all isDigit
  | _ => false

/-- The options that a word which is no full spelling could mean. -/
def candidates (word : List Char) : List (String × Word) :=
  match word with
  | '-' :: '-' :: _ =>
      let (start, value?) := splitEquals word
      (Flag.table.filter fun entry => start.isPrefixOf entry.1.toList).map fun entry =>
        (entry.1, .flag entry.2 (match value? with | some value => .value value | none => .nothing))
  | _ =>
      (Flag.table.filter fun entry => entry.1.toList == word.take 2).map fun entry =>
        (entry.1, .flag entry.2 (.letters (word.drop 2)))

/-- What a word that begins with a hyphen and has more characters is, if it is
no full spelling of an option. -/
def ofHyphened (text : String) (word : List Char) : Except UsageError Word :=
  match splitEquals word with
  | (start, some value) =>
      match Flag.ofSpelling? start with
      | some option => .ok (.flag option (.value value))
      | none => ofUnspelled text word
  | _ => ofUnspelled text word
where
  /-- What a word is that does not begin with a full spelling either. -/
  ofUnspelled (text : String) (word : List Char) : Except UsageError Word :=
    match candidates word with
    | [(_, meaning)] => .ok meaning
    | [] =>
        if isPlainDecimal word.tail || word.contains ' ' then .ok (.plain text)
        else .ok (.stray text)
    | several => .error (.ambiguous text (several.map (·.1)))

/-- What a word of the command line is. -/
def ofString (text : String) : Except UsageError Word :=
  match text.toList with
  | '-' :: rest =>
      match Flag.ofSpelling? ('-' :: rest) with
      | some option => .ok (.flag option .nothing)
      | none => if rest.isEmpty then .ok (.plain text) else ofHyphened text ('-' :: rest)
  | _ => .ok (.plain text)

/-- What the words of a command line are.  Behind two hyphens nothing is an
option. -/
def ofStrings : List String → Except UsageError (List Word)
  | [] => .ok []
  | text :: rest =>
      if text = "--" then .ok (.stray text :: rest.map .plain)
      else do
        let word ← ofString text
        return word :: (← ofStrings rest)

end Word

/-- What the command line of the server program says. -/
structure Options where
  host : String
  port : Int
  logPath : String
  flushInterval : Binary64
  debug : Bool
  deriving DecidableEq, Repr

namespace Options

/-- The options of an empty command line. -/
def ofSettings (settings : Settings) : Options :=
  { host := settings.host, port := settings.port, logPath := settings.logPath
    flushInterval := settings.flushInterval, debug := settings.debug }

/-- Set an option that needs a value. -/
def set (options : Options) (flag : Flag) (value : String) : Except UsageError Options :=
  match flag with
  | .host => .ok { options with host := value }
  | .logPath => .ok { options with logPath := value }
  | .port =>
      match Written.integer value with
      | .ok port => .ok { options with port := port }
      | .error _ => .error (.badValue flag "int" value)
  | .flushInterval =>
      match Written.double value with
      | .ok interval => .ok { options with flushInterval := interval }
      | .error _ => .error (.badValue flag "float" value)
  | .help | .debug => .error (.unwantedValue flag value)

/-- What the letters behind `-h` amount to: more of the same option are
accepted, a value is not, and anything else comes too late. -/
def helpLetters : List Char → Dismissal
  | [] => .help
  | '-' :: rest => .usage (.unwantedValue .help (String.ofList ('-' :: rest)))
  | 'h' :: '=' :: value => .usage (.unwantedValue .help (String.ofList value))
  | 'h' :: rest => helpLetters rest
  | _ => .help

/-- Act on the words of a command line one after the other; `extras` are the
words without meaning that came before, the last one first. -/
def act : List Word → Options → List String → Except Dismissal Options
  | [], options, [] => .ok options
  | [], _, extras => .error (.usage (.unrecognized extras.reverse))
  | .plain text :: rest, options, extras => act rest options (text :: extras)
  | .stray text :: rest, options, extras => act rest options (text :: extras)
  | .flag flag (.value value) :: rest, options, extras =>
      match options.set flag (String.ofList value) with
      | .ok options => act rest options extras
      | .error error => .error (.usage error)
  | .flag _ (.letters letters) :: _, _, _ => .error (helpLetters letters)
  | .flag .help .nothing :: _, _, _ => .error .help
  | .flag .debug .nothing :: rest, options, extras =>
      act rest { options with debug := true } extras
  | .flag flag .nothing :: .plain value :: rest, options, extras =>
      match options.set flag value with
      | .ok options => act rest options extras
      | .error error => .error (.usage error)
  | .flag flag .nothing :: _, _, _ => .error (.usage (.missingValue flag))

/-- The options that a command line amounts to under given settings. -/
def parse (settings : Settings) (words : List String) : Except Dismissal Options :=
  match Word.ofStrings words with
  | .error error => .error (.usage error)
  | .ok words => act words (ofSettings settings) []

end Options

end DurableStore
