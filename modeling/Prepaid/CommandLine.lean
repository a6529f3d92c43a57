import Prepaid.Command.Script
import Prepaid.Command.Table
import Prepaid.Ledger.History
import Prepaid.Report

/-!
# The command line

The program applies a command file to an empty ledger and prints the balances, or
the entries of one user. Options have long names and take one value, which stands
behind an equals sign or is the next argument; a value of its own must not look
like an option. The arguments are read from left to right, and the first that
cannot be understood ends the program, as does a request for help.
-/

namespace Prepaid.CommandLine

/-- How much is logged. -/
inductive LogLevel where
  | warn
  | info
  | debug
  | trace
  deriving DecidableEq, Repr

/-- The name of a level. -/
def LogLevel.name : LogLevel → String
  | .warn => "WARN"
  | .info => "INFO"
  | .debug => "DEBUG"
  | .trace => "TRACE"

/-- The level for a number of requests to log more. -/
def LogLevel.ofVerbosity : Nat → LogLevel
  | 0 => .warn
  | 1 => .info
  | 2 => .debug
  | _ => .trace

/-! ## Arguments -/

/-- An option with a value. -/
inductive Setting where
  | databasePath
  | secret
  | currency
  | cutoff
  | depositLimit
  | pageSize
  | history
  deriving DecidableEq, Repr

namespace Setting

def all : List Setting :=
  [databasePath, secret, currency, cutoff, depositLimit, pageSize, history]

/-- The name of an option, without the hyphens in front of it. -/
def name : Setting → String
  | databasePath => "db-path"
  | secret => "webhook-secret"
  | currency => "currency"
  | cutoff => "cancel-cutoff-minutes"
  | depositLimit => "max-deposit"
  | pageSize => "page-size"
  | history => "history"

/-- The option with a given name. -/
def ofName? (text : String) : Option Setting :=
  all.find? fun setting => setting.name = text

end Setting

/-- What the arguments ask for. -/
structure Options where
  input : Option String := none
  secret : String := "whsec_sandbox"
  settings : Settings := {}
  history : Option UserId := none
  verbosity : Nat := 0
  /-- The options that have been given a value. -/
  given : List Setting := []

namespace Options

/-- Gives an option its value. There is none that cannot be read, and no option is given twice. The
largest deposit may have an exponent: `--max-deposit 1e4` is the default limit. -/
def set? (setting : Setting) (value : String) (options : Options) : Option Options :=
  if setting ∈ options.given then none
  else
    let options := { options with given := setting :: options.given }
    match setting with
    | .databasePath => if value = "" then none else some options
    | .secret => some { options with secret := value }
    | .currency => some { options with settings.currency := value }
    | .cutoff =>
      (Text.integer? Text.maxInt64 value.toList).map fun cutoffMinutes =>
        { options with settings.cutoffMinutes := cutoffMinutes }
    | .depositLimit =>
      (Decimal.ofText? value).map fun limit =>
        { options with settings.depositLimit := .ofDecimal limit }
    | .pageSize =>
      (Text.natural? Text.maxNat64 value.toList).map fun pageSize =>
        { options with settings.pageSize := pageSize }
    | .history =>
      (Text.natural? Text.maxNat64 value.toList).map fun user =>
        { options with history := some ⟨user.toUInt64⟩ }

/-- Names the command file, once. -/
def setInput? (path : String) (options : Options) : Option Options :=
  if path = "" ∨ options.input.isSome then none else some { options with input := some path }

end Options

/-- What the program is to do. -/
inductive Request where
  | run (options : Options)
  | help
  | version
  /-- The arguments cannot be understood. -/
  | invalid

/-- Whether an argument looks like an option. -/
def looksLikeOption : List Char → Bool
  | '-' :: _ :: _ => true
  | _ => false

/-- Reads a row of one-letter options. The answer is a request that ends the reading, or the options
so far. -/
def readLetters : List Char → Options → Except Request Options
  | [], options => .ok options
  | 'v' :: rest, options => readLetters rest { options with verbosity := options.verbosity + 1 }
  | 'h' :: _, _ => .error .help
  | 'V' :: _, _ => .error .version
  | _ :: _, _ => .error .invalid

/-- Reads arguments that name nothing but the command file. -/
def readInputs : List String → Options → Request
  | [], options => if options.input.isSome then .run options else .invalid
  | path :: rest, options =>
    match options.setInput? path with
    | some options => readInputs rest options
    | none => .invalid

/-- What an argument is. -/
inductive Argument where
  /-- Only the command file may follow. -/
  | end
  /-- A long option, with a value behind an equals sign or none. -/
  | long (name : String) (value : Option String)
  | letters (letters : List Char)
  | input (path : String)
  deriving DecidableEq, Repr

/-- Tells what an argument is. -/
def Argument.ofText (text : String) : Argument :=
  match text.toList with
  | ['-', '-'] => .end
  | '-' :: '-' :: rest =>
    match rest.span (· ≠ '=') with
    | (name, []) => .long (String.ofList name) none
    | (name, _ :: value) => .long (String.ofList name) (some (String.ofList value))
  | '-' :: letter :: rest => .letters (letter :: rest)
  | _ => .input text

/-- Reads arguments from left to right. -/
def readArguments : List String → Options → Request
  | [], options => if options.input.isSome then .run options else .invalid
  | argument :: rest, options =>
    match Argument.ofText argument with
    | .end => readInputs rest options
    | .input path =>
      match options.setInput? path with
      | some options => readArguments rest options
      | none => .invalid
    | .letters letters =>
      match readLetters letters options with
      | .ok options => readArguments rest options
      | .error request => request
    | .long "verbose" none => readArguments rest { options with verbosity := options.verbosity + 1 }
    | .long "help" none => .help
    | .long "version" none => .version
    | .long name (some value) =>
      match (Setting.ofName? name).bind fun setting => options.set? setting value with
      | some options => readArguments rest options
      | none => .invalid
    | .long name none =>
      match Setting.ofName? name, rest with
      | some setting, value :: rest =>
        if looksLikeOption value.toList then .invalid
        else
          match options.set? setting value with
          | some options => readArguments rest options
          | none => .invalid
      | _, _ => .invalid

/-- What a list of arguments asks for. -/
def Request.ofArguments (arguments : List String) : Request :=
  readArguments arguments {}

/-! ## Running -/

/-- What a run leaves behind: its exit code and what it has printed. -/
structure Result where
  exitCode : Nat
  output : String
  deriving DecidableEq, Repr

namespace Result

/-- The text that explains the arguments. -/
def help : Result :=
  ⟨0, "Usage: canteen-ledger [OPTIONS] <INPUT>

Arguments:
  <INPUT>  Ledger commands CSV file (op,user,order,amount,at,session,event)

Options:
      --db-path <DB_PATH>
          Path to persistent database (optional). If provided, uses RocksDB
      --webhook-secret <WEBHOOK_SECRET>
          Secret the sandbox gateway signs webhook bodies with [default: whsec_sandbox]
      --currency <CURRENCY>
          Currency passed to the gateway for top-ups [default: usd]
      --cancel-cutoff-minutes <CANCEL_CUTOFF_MINUTES>
          Minutes before the menu window after which customers can no longer cancel [default: 15]
      --max-deposit <MAX_DEPOSIT>
          Largest single deposit or top-up [default: 10000.00]
      --page-size <PAGE_SIZE>
          Rows per history page [default: 20]
      --history <HISTORY>
          Print this user's transaction history instead of the balance report
  -v, --verbose...
          Increase log verbosity (-v info, -vv debug, -vvv trace)
  -h, --help
          Print help
  -V, --version
          Print version
"⟩

/-- The version, behind the name that the program goes by. -/
def version (program : String) : Result := ⟨0, program ++ " 0.1.0\n"⟩

/-- Arguments that cannot be understood. -/
def invalid : Result := ⟨2, ""⟩

/-- Settings that are refused, or a command file that cannot be read. -/
def failed : Result := ⟨1, ""⟩

/-- A sum of money that is too large to compute with. -/
def overflowed : Result := ⟨101, ""⟩

end Result

/-- Whether a failure is an overflow, which ends the program. -/
def isOverflow : Except Failure Unit → Bool
  | .error (.overflow _) => true
  | _ => false

/-- The report that the options ask for. -/
def report (options : Options) (ledger : Ledger) : Result :=
  match options.history with
  | some user => ⟨0, Report.entries ((ledger.pages options.settings user {}).flatMap (·.items))⟩
  | none =>
    match ledger.balances with
    | .ok balances => ⟨0, Report.balances balances⟩
    | .error _ => .overflowed

/-- Runs the program on the bytes of the command file, if there are any. The stamps are those of the
rows in their order. -/
def run (options : Options) (table : Option (List UInt8)) (stamp : Nat → Stamp) : Result :=
  match options.settings.check, table with
  | .error _, _ => .failed
  | .ok (), none => .failed
  | .ok (), some table =>
    let rows := (Command.ofTable table).mapIdx fun index row => (row, stamp index)
    let (results, script) :=
      Script.run options.settings rows { service := { gateway := { secret := options.secret } } }
    if results.any isOverflow then .overflowed
    else report options script.service.ledger

end Prepaid.CommandLine
