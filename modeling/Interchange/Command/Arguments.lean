import Interchange.Files.Location

/-!
What the arguments of the command line ask for. Options stand before or behind the name of a command; an
option that takes a value takes it from its own argument or from the next.
-/

namespace Interchange.Command

open Files (Location)

/-- A task. -/
inductive Task where
  | process (input : Location) (interface : String)
  | schema (reference : String) (client : Option String) (rules : List Location)
  | rules (file : Location)
  deriving DecidableEq, Repr

/-- A task and the configuration for it. -/
structure Invocation where
  config : Option Location
  task : Task
  deriving DecidableEq, Repr

/-- What arguments ask for. -/
inductive Request where
  | run (i : Invocation)
  | help
  | version
  | misuse
  deriving DecidableEq, Repr

/-- The options that take values. -/
inductive Setting where
  | config
  | logLevel
  | interface
  | client
  | rules
  deriving DecidableEq, Repr

namespace Setting

def long : Setting → String
  | config => "config"
  | logLevel => "log-level"
  | interface => "interface"
  | client => "client"
  | rules => "rules"

def short : Setting → Option Char
  | config => some 'c'
  | interface => some 'i'
  | rules => some 'r'
  | logLevel | client => none

/-- A location may not be empty. -/
def isLocation : Setting → Bool
  | config | rules => true
  | _ => false

/-- Whether an option may come several times. -/
def isRepeatable (s : Setting) : Bool := s == rules

end Setting

/-- A level at which arguments are read: before the name of a command, or behind it. -/
inductive Level where
  | top
  | process
  | schema
  | rules
  deriving DecidableEq, Repr

namespace Level

def settings : Level → List Setting
  | top | rules => [.config, .logLevel]
  | process => [.config, .logLevel, .interface]
  | schema => [.config, .logLevel, .client, .rules]

def ofName : String → Option Level
  | "process" => some process
  | "schema" => some schema
  | "rules" => some rules
  | _ => none

end Level

/-- What was read on a level: values of options, last first, and the operand. -/
structure Gathered where
  values : List (Setting × String)
  operand : Option String
  deriving DecidableEq, Repr

namespace Gathered

def empty : Gathered := ⟨[], none⟩

def value? (g : Gathered) (s : Setting) : Option String := g.values.lookup s

def all (g : Gathered) (s : Setting) : List String :=
  (g.values.reverse.filter (·.1 == s)).map (·.2)

/-- Adds a value, unless the option has one already or may not have this one. -/
def add (g : Gathered) (s : Setting) (value : String) : Option Gathered :=
  if (s.isLocation && value.isEmpty) || (!s.isRepeatable && (g.value? s).isSome) then none
  else some { g with values := (s, value) :: g.values }

end Gathered

/-- What an argument is. -/
inductive Argument where
  | operand (text : String)
  | separator
  | help
  | version
  | option (s : Setting) (value : Option String)
  | unknown
  deriving DecidableEq, Repr

/-- Drops the equals sign in front of a value. -/
def dropEquals : List Char → List Char
  | '=' :: rest => rest
  | rest => rest

/-- Reads the name of a long option, which may have a value behind an equals sign. -/
def readLong (level : Level) (body : List Char) : Argument :=
  let (name, value) :=
    match Text.splitOnce '=' body with
    | some (name, value) => (String.ofList name, some (String.ofList value))
    | none => (String.ofList body, none)
  if name == "help" && value.isNone then .help
  else if name == "version" && value.isNone && level == .top then .version
  else
    match level.settings.find? (·.long == name) with
    | some s => .option s value
    | none => .unknown

/-- Reads a short option, which may have a value behind it. -/
def readShort (level : Level) (letter : Char) (rest : List Char) : Argument :=
  if letter == 'h' then .help
  else if letter == 'V' && level == .top then .version
  else
    match level.settings.find? (·.short == some letter) with
    | some s => .option s (if rest.isEmpty then none else some (String.ofList (dropEquals rest)))
    | none => .unknown

/-- Reads an argument; a hyphen alone is an operand. -/
def readArgument (level : Level) (text : String) : Argument :=
  match text.toList with
  | ['-'] => .operand text
  | ['-', '-'] => .separator
  | '-' :: '-' :: body => readLong level body
  | '-' :: letter :: rest => readShort level letter rest
  | _ => .operand text

/-- A text that can be the value of an option in front of it. -/
def isValue (text : String) : Bool :=
  match text.toList with
  | ['-'] => true
  | '-' :: _ => false
  | _ => true

/-- The location that an operand names, which may not be empty. -/
def locationOf (operand : Option String) : Option Location := operand.filter fun p => !p.isEmpty

def taskOf (level : Level) (g : Gathered) : Option Task :=
  match level with
  | .top => none
  | .process => do return .process (← locationOf g.operand) (← g.value? .interface)
  | .schema => do return .schema (← g.operand) (g.value? .client) (g.all .rules)
  | .rules => do return .rules (← locationOf g.operand)

/-- What has been gathered on all levels. The configuration that is named last counts. -/
def finish (level : Level) (top g : Gathered) : Request :=
  match taskOf level g with
  | some task => .run ⟨(g.value? .config).or (top.value? .config), task⟩
  | none => .misuse

/-- Takes an operand of a command; each has one. -/
def takeOperand (g : Gathered) (level : Level) (text : String) : Option Gathered :=
  if g.operand.isSome || (level != .schema && text.isEmpty) then none
  else some { g with operand := some text }

/-- Takes the arguments behind a separator, which are all operands. -/
def takeOperands (g : Gathered) (level : Level) (texts : List String) : Option Gathered :=
  texts.foldlM (fun g text => takeOperand g level text) g

/-- Reads the arguments of a command. -/
def readCommand (level : Level) (top g : Gathered) : List String → Request
  | [] => finish level top g
  | text :: rest =>
    match readArgument level text with
    | .help => .help
    | .version | .unknown => .misuse
    | .separator =>
      match takeOperands g level rest with
      | some g => finish level top g
      | none => .misuse
    | .operand text =>
      match takeOperand g level text with
      | some g => readCommand level top g rest
      | none => .misuse
    | .option s (some value) =>
      match g.add s value with
      | some g => readCommand level top g rest
      | none => .misuse
    | .option s none =>
      match rest with
      | value :: rest =>
        match (if isValue value then g.add s value else none) with
        | some g => readCommand level top g rest
        | none => .misuse
      | [] => .misuse

/-- Reads what help is asked for: on nothing further, or on a command. -/
def readHelp : List String → Request
  | [] => .help
  | [name] => if (Level.ofName name).isSome || name == "help" then .help else .misuse
  | _ => .misuse

/-- Reads the arguments in front of a command. -/
def readTop (g : Gathered) : List String → Request
  | [] => .misuse
  | text :: rest =>
    match readArgument .top text with
    | .help => .help
    | .version => .version
    | .unknown | .separator => .misuse
    | .operand text =>
      if text == "help" then readHelp rest
      else
        match Level.ofName text with
        | some level => readCommand level g .empty rest
        | none => .misuse
    | .option s (some value) =>
      match g.add s value with
      | some g => readTop g rest
      | none => .misuse
    | .option s none =>
      match rest with
      | value :: rest =>
        match (if isValue value then g.add s value else none) with
        | some g => readTop g rest
        | none => .misuse
      | [] => .misuse

def Request.ofArguments (arguments : List String) : Request := readTop .empty arguments

end Interchange.Command
